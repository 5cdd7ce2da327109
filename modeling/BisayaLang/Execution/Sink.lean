/-
**Where output goes.**

A sink takes bytes.  It may take only some of those it is offered, it may fail, and what it took may
be pending until it is flushed.  Writing a text means to offer what is left until all is taken.

Main definitions:

* `BisayaLang.Sink` — what a sink does;
* `BisayaLang.Sink.writeAll`, `BisayaLang.Sink.writeLine` — writing bytes, and a line of text;
* `BisayaLang.Buffer` — a sink in memory, which may have limits.
-/

import BisayaLang.Source.IoKind

set_option relaxedAutoImplicit false
set_option autoImplicit false

namespace BisayaLang

/-- A sink of bytes. -/
class Sink (σ : Type) where
  /-- offers bytes, and says how many of them were taken -/
  write : List UInt8 → σ → Except IoKind Nat × σ
  /-- passes on what was taken -/
  flush : σ → Except IoKind Unit × σ

namespace Sink

variable {σ : Type} [Sink σ]

/-- Offers bytes until all are taken.  A sink that takes none of them fails. -/
def writeAll : List UInt8 → σ → Except IoKind Unit × σ
  | [], sink => (.ok (), sink)
  | b :: bytes, sink =>
      match write (b :: bytes) sink with
      | (.error kind, sink) => (.error kind, sink)
      | (.ok 0, sink) => (.error .writeZero, sink)
      | (.ok (n + 1), sink) => writeAll (bytes.drop n) sink
termination_by bytes => bytes.length
decreasing_by
  simp only [List.length_drop, List.length_cons]
  omega

/-- Writes bytes, then more bytes, and flushes; stops at the first failure. -/
def writeThenFlush (first second : List UInt8) (sink : σ) : Except IoKind Unit × σ :=
  match writeAll first sink with
  | (.error kind, sink) => (.error kind, sink)
  | (.ok (), sink) =>
      match writeAll second sink with
      | (.error kind, sink) => (.error kind, sink)
      | (.ok (), sink) => flush sink

/-- Writes a line with its end, and flushes. -/
def writeLine (line : String) (sink : σ) : Except IoKind Unit × σ :=
  writeThenFlush (Utf8.encode line) (Utf8.encode "\n") sink

end Sink

/-- A sink in memory.  A limit on its size or on the number of times it can be flushed makes it fail
beyond the limit. -/
structure Buffer where
  bytes : Array UInt8
  room : Option Nat
  flushes : Option Nat

namespace Buffer

/-- An empty buffer without limits. -/
def unlimited : Buffer := ⟨#[], none, none⟩

/-- Takes what there is room for; without any room, the pipe is broken. -/
def write (offered : List UInt8) (b : Buffer) : Except IoKind Nat × Buffer :=
  match b.room with
  | none => (.ok offered.length, { b with bytes := b.bytes ++ offered })
  | some 0 => (.error .brokenPipe, b)
  | some room =>
      let taken := offered.take room
      (.ok taken.length, { b with bytes := b.bytes ++ taken, room := some (room - taken.length) })

/-- Counts the times the buffer is flushed; beyond the limit it is denied. -/
def flush (b : Buffer) : Except IoKind Unit × Buffer :=
  match b.flushes with
  | none => (.ok (), b)
  | some 0 => (.error .permissionDenied, b)
  | some (n + 1) => (.ok (), { b with flushes := some n })

instance : Sink Buffer := ⟨write, flush⟩

end Buffer

end BisayaLang
