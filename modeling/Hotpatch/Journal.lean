/-! # Journal

What the library reports while it works. Pure functions give their records as a list, in order;
those that work on files hand them to a journal.

* **`Record`** — a level and a text.
* **`Journal`** — the class of monads that take records. -/

namespace Hotpatch

/-- The **level** of a record, the gravest first. -/
inductive Level where
  | error | warn | info | debug | trace
deriving Repr, DecidableEq, Inhabited

/-- **Name** of a level. -/
def Level.name : Level → String
  | error => "ERROR"
  | warn => "WARN"
  | info => "INFO"
  | debug => "DEBUG"
  | trace => "TRACE"

/-- A **record** of the journal. -/
structure Record where
  level : Level
  text : String
deriving Repr, DecidableEq, Inhabited

/-- **Line** of a record: the level and the text. -/
def Record.line (r : Record) : String :=
  r.level.name ++ ": " ++ r.text

/-- A **journal** takes records. -/
class Journal (m : Type → Type) where
  record : Record → m Unit

/-- **Record all**, in order. -/
def Journal.recordAll {m : Type → Type} [Monad m] [Journal m] (records : List Record) : m Unit :=
  records.forM Journal.record

end Hotpatch
