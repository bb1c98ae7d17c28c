import AtmCore.Errors
import Mathlib.Algebra.Group.Nat.Defs
import Mathlib.Data.List.TakeWhile

/-! The validated identifiers of the storage contract. Agent, team and chat names are path segments: ASCII letters,
digits, `-` and `_`, never empty. A task id is any text that is not blank, kept trimmed, and a message key any text that
is not blank. Message ids are ULIDs, whose top 48 bits are a millisecond timestamp. -/

namespace AtmCore

open List

/-- `char::is_whitespace` on the characters that can stand in an ATM identifier: the ASCII blanks and the
non-ASCII blanks of Unicode's `White_Space`. -/
def isWhitespace (c : Char) : Bool :=
  let n := c.toNat
  (9 ≤ n && n ≤ 13) || n == 32 || n == 0x85 || n == 0xA0 || n == 0x1680 ||
    (0x2000 ≤ n && n ≤ 0x200A) || n == 0x2028 || n == 0x2029 || n == 0x202F || n == 0x205F ||
    n == 0x3000

def trim (s : String) : String :=
  String.ofList ((s.toList.dropWhile isWhitespace).reverse.dropWhile isWhitespace).reverse

theorem trim_ne_empty {s : String} {c : Char} (hc : c ∈ s.toList) (hvisible : isWhitespace c = false) :
    trim s ≠ "" := by
  intro h
  have hnil : ((s.toList.dropWhile isWhitespace).reverse.dropWhile isWhitespace).reverse = [] := by
    simpa [trim] using congrArg String.toList h
  rw [reverse_eq_nil_iff, dropWhile_eq_nil_iff] at hnil
  have hall : ∀ d ∈ s.toList, isWhitespace d = true := by
    intro d hd
    rw [← takeWhile_append_dropWhile (p := isWhitespace) (l := s.toList)] at hd
    rcases mem_append.mp hd with hd | hd
    · exact mem_takeWhile_imp hd
    · exact hnil d (mem_reverse.mpr hd)
  simp [hall c hc] at hvisible

theorem trim_eq_self {s : String} (h : ∀ c ∈ s.toList, isWhitespace c = false) : trim s = s := by
  have hdrop : ∀ l : List Char, (∀ c ∈ l, isWhitespace c = false) → l.dropWhile isWhitespace = l := by
    intro l hl
    cases l with
    | nil => rfl
    | cons c cs => simp [hl c mem_cons_self]
  rw [trim, hdrop _ h, hdrop _ (fun c hc => h c (mem_reverse.mp hc)), reverse_reverse,
    String.ofList_toList]

/-- What a path segment names; the text stands in the error messages. -/
inductive SegmentKind where
  | agent
  | team
  | chatId
  deriving DecidableEq

def SegmentKind.text : SegmentKind → String
  | agent => "agent"
  | team => "team"
  | chatId => "chat id"

def isSegmentChar (c : Char) : Bool :=
  ('a' ≤ c && c ≤ 'z') || ('A' ≤ c && c ≤ 'Z') || ('0' ≤ c && c ≤ '9') || c == '-' || c == '_'

def validatePathSegment (value : String) (kind : SegmentKind) : Except AtmError Unit :=
  if value.toList.isEmpty then
    .error (.addressParse (kind.text ++ " name must not be empty"))
  else if !value.toList.all isSegmentChar then
    .error (.addressParse (kind.text ++ " name must use only ASCII letters, digits, '-' or '_'"))
  else .ok ()

/-- A validated name of one kind. -/
structure Segment (kind : SegmentKind) where
  val : String
  valid : validatePathSegment val kind = .ok ()
  deriving DecidableEq

abbrev AgentName := Segment .agent
abbrev TeamName := Segment .team
abbrev ChatId := Segment .chatId

def Segment.parse (kind : SegmentKind) (value : String) : Except AtmError (Segment kind) :=
  match h : validatePathSegment (trim value) kind with
  | .error e => .error e
  | .ok () => .ok ⟨trim value, h⟩

theorem isWhitespace_of_isSegmentChar {c : Char} (h : isSegmentChar c = true) : isWhitespace c = false := by
  simp only [isSegmentChar, Bool.or_eq_true, Bool.and_eq_true, decide_eq_true_eq, beq_iff_eq,
    Char.le_def, UInt32.le_iff_toNat_le] at h
  have hval : c.toNat = c.val.toNat := rfl
  have hdash : c = '-' → c.val.toNat = 45 := fun h => h ▸ rfl
  have hunder : c = '_' → c.val.toNat = 95 := fun h => h ▸ rfl
  have hrange : 45 ≤ c.val.toNat ∧ c.val.toNat ≤ 122 := by
    rcases h with (((⟨h1, h2⟩ | ⟨h1, h2⟩) | ⟨h1, h2⟩) | h) | h
    · exact ⟨Nat.le_trans (by decide) h1, Nat.le_trans h2 (by decide)⟩
    · exact ⟨Nat.le_trans (by decide) h1, Nat.le_trans h2 (by decide)⟩
    · exact ⟨Nat.le_trans (by decide) h1, Nat.le_trans h2 (by decide)⟩
    · rw [hdash h]; decide
    · rw [hunder h]; decide
  simp only [isWhitespace, hval]
  simp only [Bool.or_eq_false_iff, Bool.and_eq_false_iff, decide_eq_false_iff_not, beq_eq_false_iff_ne]
  omega

@[simp] theorem Segment.parse_val {kind : SegmentKind} (name : Segment kind) :
    Segment.parse kind name.val = .ok name := by
  have hchars : ∀ c ∈ name.val.toList, isSegmentChar c = true := by
    have hval := name.valid
    unfold validatePathSegment at hval
    split at hval
    · cases hval
    · split at hval
      · cases hval
      · next hall => simpa using hall
  have htrim := trim_eq_self (fun c hc => isWhitespace_of_isSegmentChar (hchars c hc))
  unfold Segment.parse
  split
  · next e he => rw [htrim, name.valid] at he; cases he
  · next he =>
    cases name
    simp only [Except.ok.injEq, Segment.mk.injEq]
    exact htrim

/-- The reserved sender of daemon-originated task events. -/
def daemonActorName : String := "atm-daemon"

structure TaskId where
  val : String
  valid : trim val = val ∧ val ≠ ""
  deriving DecidableEq

def TaskId.parse (value : String) : Except AtmError TaskId :=
  if h : trim (trim value) = trim value ∧ trim value ≠ "" then .ok ⟨trim value, h⟩
  else .error (.validation "task id must not be blank")

@[simp] theorem TaskId.parse_val (id : TaskId) : TaskId.parse id.val = .ok id := by
  have h : trim (trim id.val) = trim id.val ∧ trim id.val ≠ "" := by
    rw [id.valid.1]
    exact id.valid
  rw [TaskId.parse, dif_pos h]
  cases id
  next valid => simp [valid.1]

structure MessageKey where
  val : String
  valid : trim val ≠ ""
  deriving DecidableEq

/-- A ULID: 128 bits, the top 48 of them a millisecond timestamp. -/
structure AtmMessageId where
  val : Nat
  lt : val < 2 ^ 128
  deriving DecidableEq

/-- An instant, in nanoseconds since the epoch. -/
structure IsoTimestamp where
  nanos : Int
  deriving DecidableEq

/-- The digits of Crockford's alphabet, in which a ULID is printed. -/
def crockford : List Char := "0123456789ABCDEFGHJKMNPQRSTVWXYZ".toList

/-- The 26 digits of a ULID, most significant first. -/
def ulidDigits (n : Nat) : Nat → List Char
  | 0 => []
  | k + 1 => ulidDigits (n / 32) k ++ [crockford.getD (n % 32) '0']

def AtmMessageId.toText (id : AtmMessageId) : String := String.ofList (ulidDigits id.val 26)

/-- The key of a message that has a ULID. -/
def MessageKey.fromAtmMessageId (id : AtmMessageId) : MessageKey where
  val := "atm:" ++ id.toText
  valid := trim_ne_empty (c := 'a') (by simp) (by decide)

def AtmMessageId.timestamp (id : AtmMessageId) : IsoTimestamp :=
  ⟨(id.val / 2 ^ 80 : Nat) * 1000000⟩

/-- `SystemTime + Duration`. -/
def IsoTimestamp.addMillis (instant : IsoTimestamp) (millis : Nat) : IsoTimestamp :=
  ⟨instant.nanos + millis * 1000000⟩

structure MemberKey where
  team : TeamName
  agent : AgentName
  deriving DecidableEq

end AtmCore
