/-
**Collecting notices.**

Notices are kept in an outbox until somebody reads them.  They get there through channels, each of which
counts what goes through it.  A closed channel counts, too, but what goes through it is lost.

Main definitions:

* `BisayaLang.Outbox` — notices in the order of their arrival;
* `BisayaLang.Channel` — a way to the outbox;
* `BisayaLang.Channel.emit` — sends a notice.
-/

import BisayaLang.Run.Problem

set_option relaxedAutoImplicit false
set_option autoImplicit false

namespace BisayaLang

/-- Notices in the order of their arrival. -/
structure Outbox where
  notices : Array Notice

namespace Outbox

/-- An outbox without notices. -/
def empty : Outbox := ⟨#[]⟩

/-- Adds a notice. -/
def push (box : Outbox) (n : Notice) : Outbox := ⟨box.notices.push n⟩

/-- Takes out the newest notice. -/
def pop? (box : Outbox) : Option (Notice × Outbox) :=
  box.notices.back?.map fun n => (n, ⟨box.notices.pop⟩)

end Outbox

/-- A way to the outbox. -/
structure Channel where
  count : Nat
  isOpen : Bool

namespace Channel

/-- A channel that nothing went through yet. -/
def fresh : Channel := ⟨0, true⟩

/-- A channel that leads nowhere. -/
def closed : Channel := ⟨0, false⟩

/-- Sends a notice. -/
def emit (c : Channel) (box : Outbox) (n : Notice) : Channel × Outbox :=
  ({ c with count := c.count + 1 }, if c.isOpen then box.push n else box)

/-- Counts from zero again. -/
def recount (c : Channel) : Channel := { c with count := 0 }

end Channel

end BisayaLang
