/-
**Failures of input and output.**

Main definitions:

* `BisayaLang.IoKind` — the kinds of failure that a system reports;
* `BisayaLang.IoKind.message` — a kind in words;
* `BisayaLang.IoKind.ofFault` — the failure that bytes without a character amount to.
-/

import BisayaLang.Source.Utf8

set_option relaxedAutoImplicit false
set_option autoImplicit false

namespace BisayaLang

/-- Kinds of failure of input and output. -/
inductive IoKind where
  | notFound | permissionDenied | connectionRefused | connectionReset | brokenPipe | alreadyExists
  | wouldBlock | invalidInput | invalidData | timedOut | writeZero | interrupted | unsupported
  | unexpectedEof | outOfMemory | other
  deriving DecidableEq, Inhabited

namespace IoKind

/-- A kind of failure in words. -/
def message : IoKind → String
  | .notFound => "entity not found"
  | .permissionDenied => "permission denied"
  | .connectionRefused => "connection refused"
  | .connectionReset => "connection reset"
  | .brokenPipe => "broken pipe"
  | .alreadyExists => "entity already exists"
  | .wouldBlock => "operation would block"
  | .invalidInput => "invalid input parameter"
  | .invalidData => "invalid data"
  | .timedOut => "timed out"
  | .writeZero => "write zero"
  | .interrupted => "operation interrupted"
  | .unsupported => "unsupported"
  | .unexpectedEof => "unexpected end of file"
  | .outOfMemory => "out of memory"
  | .other => "other error"

/-- Bytes that are no character are invalid data; bytes that end inside one end too early. -/
def ofFault : Utf8.Fault → IoKind
  | .malformed => .invalidData
  | .truncated => .unexpectedEof

end IoKind

end BisayaLang
