import NitpickerDaemon.MiniReviewer

/-!
The git index a commit is made from: the names `git diff --name-only` prints, quoted under the
default `core.quotePath`, and the diffs behind them.
-/

set_option autoImplicit false

namespace Nitpicker

open Effect

/-- The byte stands for itself in a printed name. -/
def plain_byte (b : UInt8) : Bool := 32 ≤ b.toNat && b.toNat ≤ 126 && b != 34 && b != 92

/-- The C-style escape of a byte. -/
def escape_byte (b : UInt8) : List Char :=
  if plain_byte b then [Char.ofUInt8 b] else '\\' ::
    match b.toNat with
    | 7 => ['a']
    | 8 => ['b']
    | 9 => ['t']
    | 10 => ['n']
    | 11 => ['v']
    | 12 => ['f']
    | 13 => ['r']
    | 34 => ['"']
    | 92 => ['\\']
    | n => [Nat.digitChar (n / 64), Nat.digitChar (n / 8 % 8), Nat.digitChar (n % 8)]

/-- A name as git prints it. -/
def quoted (name : List UInt8) : List Char :=
  if name.all plain_byte then name.map Char.ofUInt8
  else '"' :: name.flatMap escape_byte ++ ['"']

inductive IndexStatus where
  | added | copied | modified | deleted | renamed | type_changed
  deriving DecidableEq, Repr

/-- A path whose index content differs from `HEAD`. A diff that is not empty has a header. -/
structure IndexEntry where
  name : List UInt8
  status : IndexStatus
  diff : String
  named : name ≠ []
  shown : diff ≠ "" → strip diff ≠ ""

structure GitIndex where
  entries : List IndexEntry
  distinct : (entries.map (·.name)).Nodup

namespace GitIndex

/-- The entries `--diff-filter=ACM` keeps. -/
def listed (ix : GitIndex) : List IndexEntry :=
  ix.entries.filter fun e => e.status = .added ∨ e.status = .copied ∨ e.status = .modified

/-- The output of `git diff --cached --name-only --diff-filter=ACM`. -/
def listing (ix : GitIndex) : String :=
  String.ofList (Text.unlines '\n' (ix.listed.map fun e => quoted e.name))

/-- `path` is passed to git as the bytes of `name`. -/
def Spells (path : String) (name : List UInt8) : Prop := path.toUTF8.data.toList = name

instance (path : String) (name : List UInt8) : Decidable (Spells path name) :=
  inferInstanceAs (Decidable (_ = _))

/-- The staged diff restricted to `path`, read literally; empty for an unknown path. -/
def diff_of (ix : GitIndex) (path : String) : String :=
  ((ix.entries.find? fun e => Spells path e.name).map (·.diff)).getD ""

/-- What is left of the printed names when white space is cut off the ends of the listing. -/
def seen (ix : GitIndex) : List (List Char) :=
  Text.trimEnd isspace (Text.trimStart isspace (ix.listed.map fun e => quoted e.name))

end GitIndex

/-- An index, and the paths for which the diff command exits with an error. -/
structure Git where
  index : GitIndex
  fails : String → Prop

def PyExc.is_called_process_error (e : PyExc) : Bool := e.type_name == "CalledProcessError"

def calledProcessError (message : String) : PyExc := ⟨"CalledProcessError", [], message⟩

/-- The commands that print the staged diff of `path`. -/
def staged_diffs (path : String) : List (List String) :=
  [["diff", "--cached", "--", path], MiniReviewer.diff_args path true]

/-- An answer of the git commands that follows the index. A command can also raise without
having run, or because its output has no text. -/
structure Git.Answers (git : Git) (args : List String) (a : Except PyExc String) : Prop where
  listing : args = MiniReviewer.staged_names → ∀ out, a = .ok out → out = git.index.listing
  diff : ∀ path, args ∈ staged_diffs path → ∀ out, a = .ok out →
    ¬git.fails path ∧ out = git.index.diff_of path
  failure : ∀ path, args ∈ staged_diffs path → ∀ e, a = .error e →
    e.is_called_process_error = true → git.fails path

namespace GitIndex

variable {ix : GitIndex}

end GitIndex

end Nitpicker
