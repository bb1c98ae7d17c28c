import AtmCore.CronOutbox

/-! The strict reader of cron replies. What the JSON library makes of the bytes is a parameter: a value, whose objects
have their entries in document order, repeated ones included, and the bytes after it. The strict reader refuses a key
that it has seen in the same object, where the ordinary one overwrites the value. -/

namespace AtmCore

open Fallible List

/-- The first value of some bytes and what follows it, or the error of the library. -/
abbrev JsonLibrary := List UInt8 → Except String (Value × List UInt8)

def isJsonBlank (byte : UInt8) : Bool := byte ∈ [32, 10, 9, 13]

def containsKey (values : List (String × Value)) (key : String) : Bool := values.any (·.1 = key)

def insertMember (values : List (String × Value)) (key : String) (value : Value) : List (String × Value) :=
  if containsKey values key then values.map (fun member => if member.1 = key then (key, value) else member)
  else values ++ [(key, value)]

mutual

/-- The value that ordinary parsing makes of a document. -/
def ordinaryValue : Value → Value
  | .array items => .array (ordinaryItems items)
  | .object members => .object (ordinaryMembers [] members)
  | value => value

def ordinaryItems : List Value → List Value
  | [] => []
  | item :: items => ordinaryValue item :: ordinaryItems items

def ordinaryMembers (values : List (String × Value)) : List (String × Value) → List (String × Value)
  | [] => values
  | (key, value) :: members => ordinaryMembers (insertMember values key (ordinaryValue value)) members

end

mutual

/-- The strict visitor. -/
def strictValue : Value → Except String Value
  | .array items => do return .array (← strictItems items)
  | .object members => do return .object (← strictMembers [] members)
  | value => .ok value

def strictItems : List Value → Except String (List Value)
  | [] => .ok []
  | item :: items => do return (← strictValue item) :: (← strictItems items)

def strictMembers (values : List (String × Value)) : List (String × Value) → Except String (List (String × Value))
  | [] => .ok values
  | (key, value) :: members =>
    if containsKey values key then .error ("duplicate object key `" ++ key ++ "`")
    else do strictMembers (insertMember values key (← strictValue value)) members

end

mutual

def Unrepeated : Value → Prop
  | .array items => UnrepeatedItems items
  | .object members => (members.map Prod.fst).Nodup ∧ UnrepeatedMembers members
  | _ => True

def UnrepeatedItems : List Value → Prop
  | [] => True
  | item :: items => Unrepeated item ∧ UnrepeatedItems items

def UnrepeatedMembers : List (String × Value) → Prop
  | [] => True
  | (_, value) :: members => Unrepeated value ∧ UnrepeatedMembers members

end

def strictObject (library : JsonLibrary) (stdout : List UInt8) (context : String) :
    Except AtmError (List (String × Value)) := do
  let (document, rest) ← (library stdout).mapError (fun error => hookMalformed (context ++ " JSON: " ++ error))
  let value ← (strictValue document).mapError (fun error => hookMalformed (context ++ " JSON: " ++ error))
  if rest.all isJsonBlank then
    match value with
    | .object object => .ok object
    | _ => .error (hookMalformed (context ++ " must be one JSON object"))
  else .error (hookMalformed (context ++ " must contain one JSON object: trailing characters"))

mutual

theorem strictValue_eq_ok_iff (document : Value) (value : Value) :
    strictValue document = .ok value ↔ Unrepeated document ∧ ordinaryValue document = value := by
  cases document with
  | array items =>
    simp [strictValue, Unrepeated, ordinaryValue, bind_eq_ok, strictItems_eq_ok_iff items, pure, Except.pure]
  | object members =>
    simp [strictValue, Unrepeated, ordinaryValue, bind_eq_ok, strictMembers_eq_ok_iff [] members, containsKey, pure,
      Except.pure]
  | null | bool | posInt | negInt | float | string => simp [strictValue, Unrepeated, ordinaryValue]

theorem strictItems_eq_ok_iff (items values : List Value) :
    strictItems items = .ok values ↔ UnrepeatedItems items ∧ ordinaryItems items = values := by
  cases items with
  | nil => simp [strictItems, UnrepeatedItems, ordinaryItems]
  | cons item items =>
    simp [strictItems, UnrepeatedItems, ordinaryItems, bind_eq_ok, strictValue_eq_ok_iff item,
      strictItems_eq_ok_iff items, and_assoc, pure, Except.pure]

theorem strictMembers_eq_ok_iff (values members result : List (String × Value)) :
    strictMembers values members = .ok result ↔
      ((members.map Prod.fst).Nodup ∧ ∀ key ∈ members.map Prod.fst, containsKey values key = false) ∧
      UnrepeatedMembers members ∧ ordinaryMembers values members = result := by
  cases members with
  | nil => simp [strictMembers, UnrepeatedMembers, ordinaryMembers]
  | cons member members =>
    obtain ⟨key, value⟩ := member
    simp only [strictMembers, UnrepeatedMembers, ordinaryMembers, map_cons, nodup_cons, forall_mem_cons]
    cases hkey : containsKey values key with
    | true => simp
    | false =>
      have hinsert : ∀ value other, containsKey (insertMember values key value) other =
          (containsKey values other || key = other) := by
        intro value other
        rw [insertMember, hkey]
        simp [containsKey]
      simp only [bind_eq_ok, strictValue_eq_ok_iff value, strictMembers_eq_ok_iff _ members, hinsert,
        Bool.or_eq_false_iff, if_neg Bool.false_ne_true, decide_eq_false_iff_not, forall_and, true_and]
      constructor
      · rintro ⟨_, ⟨hvalue, rfl⟩, ⟨hnodup, hfresh, hne⟩, hmembers, heq⟩
        exact ⟨⟨⟨fun hmem => hne key hmem rfl, hnodup⟩, hfresh⟩, ⟨hvalue, hmembers⟩, heq⟩
      · rintro ⟨⟨⟨hnot, hnodup⟩, hfresh⟩, ⟨hvalue, hmembers⟩, heq⟩
        exact ⟨_, ⟨hvalue, rfl⟩, ⟨hnodup, hfresh, fun other hmem hother => hnot (hother ▸ hmem)⟩, hmembers, heq⟩

end

/-- What the ordinary parsing of some bytes yields, when nothing but blanks follows the value. -/
def ordinaryParse (library : JsonLibrary) (bytes : List UInt8) : Option Value :=
  match library bytes with
  | .ok (document, rest) => if rest.all isJsonBlank then some (ordinaryValue document) else none
  | .error _ => none

theorem strict_reader_exact (library : JsonLibrary) (stdout : List UInt8) (context : String)
    (object : List (String × Value)) : strictObject library stdout context = .ok object ↔
      ordinaryParse library stdout = some (.object object) ∧
        ∃ document rest, library stdout = .ok (document, rest) ∧ Unrepeated document := by
  cases hread : library stdout with
  | error error => simp [strictObject, hread, Except.mapError, bind, Except.bind]
  | ok delivered =>
    obtain ⟨document, rest⟩ := delivered
    simp only [strictObject, ordinaryParse, hread, Except.mapError, bind_eq_ok, Except.ok.injEq,
      exists_eq_left', Prod.mk.injEq]
    cases hstrict : strictValue document with
    | error error =>
      have hnot : ¬ Unrepeated document := by
        intro h
        rw [(strictValue_eq_ok_iff document _).mpr ⟨h, rfl⟩] at hstrict
        cases hstrict
      simp [hnot]
    | ok value =>
      obtain ⟨hunrepeated, rfl⟩ := (strictValue_eq_ok_iff document value).mp hstrict
      cases rest.all isJsonBlank <;> cases ordinaryValue document <;> simp [hunrepeated, and_comm]

end AtmCore
