/-
**Running a file while it is read.**

A file can also be parsed character by character while it is read.  Reading tokens takes characters
from the file a little ahead of the tokens: two characters stand ready at any time.  The file is read
no further than that, so that an error in the text is reported before bytes behind it can cause one,
and only the text read so far is known then.

Main definitions:

* `BisayaLang.openStream` — the program of a file that is read in this way, and the text read;
* `BisayaLang.runStreamWith` — runs such a file, with any decoder;
* `BisayaLang.runStream` — the same with the decoder of a command.
-/

import BisayaLang.Run.Basic
import BisayaLang.Token.Window

set_option relaxedAutoImplicit false
set_option autoImplicit false

namespace BisayaLang

/-- Parses a file while it is read, and gives the program together with the text that was read.  A failure
of the decoder counts only if it was come to. -/
def openStream (decoder : Decoder) (path : String) (bytes : List UInt8) :
    Except Problem (Parsed × String) :=
  let (result, w) := (Window.start (.start (decoder bytes))).scan
  match w.feed.failure with
  | some kind => .error (.unreadable kind)
  | none =>
      match result with
      | .error e => .error (.rejected path w.feed.text (.ofLexError e))
      | .ok tokens =>
          match parseTokens tokens with
          | .ok parsed => .ok (parsed, w.feed.text)
          | .error e => .error (.rejected path w.feed.text e)

section

variable {σ : Type} [Sink σ]

/-- Runs a file, which is parsed while a decoder reads it. -/
def runStreamWith (decoder : Decoder) (fuel : Nat) (path : String) (file : File)
    (input : List UInt8) (sink : σ) : Run σ :=
  match file with
  | .error kind => .unstarted (.unreadable kind) input sink
  | .ok bytes =>
      match openStream decoder path bytes with
      | .ok (parsed, source) => runParsed fuel path source parsed input sink
      | .error p => .unstarted p input sink

/-- Runs a file, which is parsed while it is read. -/
def runStream (fuel : Nat) (path : String) (file : File) (input : List UInt8) (sink : σ) : Run σ :=
  runStreamWith Utf8.decoder fuel path file input sink

end

end BisayaLang
