import OrbitFit.Journal

/-!
# OrbitFit.LogTree — where reports are written

The library writes through a logger of its own, which hangs below a root logger.  A logger has a level and
handlers in order.  `configure` installs a handler for the console, and one for a file if asked; handlers
that an earlier call installed are taken out and closed, and all others, which belong to somebody else, stay
in their order.  `reset` takes the installed handlers out and forgets the level.  The root logger is never
touched.
-/

namespace OrbitFit

/-- What a handler does with a line. -/
inductive HandlerKind where
  /-- it drops the line -/
  | null
  | console
  | file
  deriving Repr, DecidableEq, Inhabited

/-- A receiver of lines. -/
structure Handler where
  /-- tells it from the other handlers of its owner -/
  id : Nat
  kind : HandlerKind
  /-- `configure` installed it -/
  installed : Bool
  deriving Repr, DecidableEq

/-- The handlers of one call of `configure`, numbered from `first`: one for the console and, if asked, one for
a file. -/
def Handler.batch (first : Nat) (toFile : Bool) : List Handler :=
  ⟨first, .console, true⟩ :: if toFile then [⟨first + 1, .file, true⟩] else []

/-- A level and handlers in order. -/
structure Logger where
  /-- the least rank that is written; `0` leaves it to the logger above -/
  level : Int
  handlers : List Handler
  deriving Repr, DecidableEq

/-- The library's logger below the root logger. -/
structure LogTree where
  /-- the name of the library's logger -/
  name : String
  root : Logger
  library : Logger
  /-- the handlers closed so far, latest first; a handler closed twice stands here twice -/
  closed : List Handler
  /-- the number of handlers that `configure` has made so far -/
  made : Nat
  deriving Repr

namespace LogTree

/-- The tree before any configuration: the root writes from warnings on, and the library's logger has a
handler that drops every line. -/
def start (name : String) : LogTree :=
  { name, root := ⟨Severity.warning.rank, []⟩, library := ⟨0, [⟨0, .null, false⟩]⟩, closed := [], made := 0 }

def installed (t : LogTree) : List Handler := t.library.handlers.filter Handler.installed

/-- The tree with a handler at the end of the library's logger, if it is not there yet. -/
def attach (h : Handler) (t : LogTree) : LogTree :=
  if h ∈ t.library.handlers then t
  else { t with library := { t.library with handlers := t.library.handlers ++ [h] } }

/-- The tree with a handler taken out of the library's logger. -/
def detach (h : Handler) (t : LogTree) : LogTree :=
  { t with library := { t.library with handlers := t.library.handlers.erase h } }

def close (h : Handler) (t : LogTree) : LogTree := { t with closed := h :: t.closed }

/-- The tree without the installed handlers, which are closed. -/
def uninstall (t : LogTree) : LogTree :=
  t.library.handlers.foldl (fun t h => if h.installed then (t.detach h).close h else t) t

/-- The tree with the library's level set. -/
def withLevel (level : Int) (t : LogTree) : LogTree := { t with library := { t.library with level } }

/-- Write from a level on, to the console and to a file if asked, in place of what was installed before. -/
def configure (level : Int) (toFile : Bool) (t : LogTree) : LogTree :=
  let t := t.uninstall
  let handlers := Handler.batch t.made toFile
  (handlers.foldl (fun (t : LogTree) h => t.attach h)
    { t with made := t.made + handlers.length }).withLevel level

/-- Undo `configure`. -/
def reset (t : LogTree) : LogTree := t.uninstall.withLevel 0

def effectiveLevel (t : LogTree) : Int := if t.library.level = 0 then t.root.level else t.library.level

def line (t : LogTree) (e : Event Float) : String :=
  t.name ++ "." ++ e.source ++ " - " ++ e.severity.name ++ " - " ++ e.message

/-- The lines that an event makes handlers write, each with the handler. -/
def deliver (t : LogTree) (e : Event Float) : List (Handler × String) :=
  if t.effectiveLevel ≤ e.severity.rank then
    ((t.library.handlers ++ t.root.handlers).filter fun h => h.kind != .null).map fun h => (h, t.line e)
  else []

end LogTree

end OrbitFit
