import Mathlib.Data.List.Forall2
import Mathlib.Data.List.Nodup
import SqlTypes.Limits.Json

/-!
# JSON texts of records

An object of numbers is a row of tokens: brackets, names, colons, numerals and commas, with blanks
before, between and after them as one likes (`Json.Spaced`). The characters of a name stand for
themselves or are written by their codes (`Json.Spells`).

Codecs come from outside, with a documentation: what is written is an object of all the fields, and
what is read depends neither on the layout of an object nor on the order of its members, takes a
missing field from the record and decimal numbers of 64 bits as they are (`JsonCodec.Documented`).
For a codec that keeps to it, an object that lists some of the fields gives these their values and
leaves the others as they are in the record (`JsonCodec.Documented.read?_listed`).
-/

namespace SqlTypes

namespace Json

def isSpace (c : Char) : Bool :=
  c = ' ' || c = '\t' || c = '\n' || c = '\r'

def quotationMark : Char := '\x22'

def backslash : Char := '\x5c'

/-- What the names of fields are made of. -/
def isNamePart (c : Char) : Bool :=
  c.isAlphanum || c = '_'

/-- The decimal digits of a number. -/
def numeral (n : Nat) : List Char :=
  Nat.toDigits 10 n

/-- The value of a hexadecimal digit. -/
def hexDigit? (c : Char) : Option Nat :=
  if c.isDigit then some (c.toNat - '0'.toNat)
  else if 'a' ≤ c ∧ c ≤ 'f' then some (c.toNat - 'a'.toNat + 10)
  else if 'A' ≤ c ∧ c ≤ 'F' then some (c.toNat - 'A'.toNat + 10)
  else none

/-- The character with a code of four hexadecimal digits; halves of surrogate pairs are none. -/
def coded? (h₁ h₂ h₃ h₄ : Char) : Option Char := do
  let digits := [← hexDigit? h₁, ← hexDigit? h₂, ← hexDigit? h₃, ← hexDigit? h₄]
  let code := digits.foldl (fun n d => n * 16 + d) 0
  if code.isValidChar then some (Char.ofNat code) else none

/-- The characters between quotation marks, and the name that they spell. -/
inductive Spells : (spelling name : List Char) → Prop
  | nil : Spells [] []
  | plain {c spelling name} (hc : isNamePart c = true) :
    Spells spelling name → Spells (c :: spelling) (c :: name)
  | code {h₁ h₂ h₃ h₄ c spelling name} (hc : coded? h₁ h₂ h₃ h₄ = some c) :
    Spells spelling name →
      Spells (backslash :: 'u' :: h₁ :: h₂ :: h₃ :: h₄ :: spelling) (c :: name)

theorem Spells.self : ∀ {name : List Char}, (∀ c ∈ name, isNamePart c = true) → Spells name name
  | [], _ => .nil
  | c :: _, h => .plain (h c List.mem_cons_self)
    (Spells.self fun d hd => h d (List.mem_cons_of_mem _ hd))

/-- A member of an object: how its name is spelled, and its value. -/
abbrev Entry := List Char × Nat

def quoted (spelling : List Char) : List Char :=
  quotationMark :: (spelling ++ [quotationMark])

/-- The tokens of an object behind its opening bracket. -/
def memberTokens : List Entry → List (List Char)
  | [] => [['\x7d']]
  | [e] => [quoted e.1, [':'], numeral e.2, ['\x7d']]
  | e :: e' :: es => quoted e.1 :: [':'] :: numeral e.2 :: [','] :: memberTokens (e' :: es)

def objectTokens (es : List Entry) : List (List Char) :=
  ['\x7b'] :: memberTokens es

/-- The tokens in a row, with blanks before, between and after them. -/
inductive Spaced : (tokens : List (List Char)) → (text : List Char) → Prop
  | nil {blank} (hb : ∀ c ∈ blank, isSpace c = true) : Spaced [] blank
  | cons {blank token tokens text} (hb : ∀ c ∈ blank, isSpace c = true) :
    Spaced tokens text → Spaced (token :: tokens) (blank ++ (token ++ text))

/-- A token without blanks before it. -/
theorem Spaced.next {token text : List Char} {tokens : List (List Char)} (h : Spaced tokens text) :
    Spaced (token :: tokens) (token ++ text) :=
  .cons (fun _ hc => absurd hc List.not_mem_nil) h

theorem Spaced.flatten : ∀ tokens : List (List Char), Spaced tokens tokens.flatten
  | [] => .nil fun _ hc => absurd hc List.not_mem_nil
  | _ :: tokens => (Spaced.flatten tokens).next

/-- The entries name the members of a record and have their values. -/
def Entries (es : List Entry) (ms : Record) : Prop :=
  List.Forall₂ (fun e m => Spells e.1 m.1.toList ∧ e.2 = m.2) es ms

/-- A text is an object of these members, in this order. -/
def IsObject (ms : Record) (text : String) : Prop :=
  ∃ es, Entries es ms ∧ Spaced (objectTokens es) text.toList

/-- The members with their names as they are. -/
def entries (ms : Record) : List Entry :=
  ms.map fun m => (m.1.toList, m.2)

/-- The object of these members without blanks. -/
def object (ms : Record) : String :=
  String.ofList (objectTokens (entries ms)).flatten

end Json

open Json

/-- Fields as they can be declared, with values of 64 bits. -/
structure Record.Declared (r : Record) : Prop where
  nodup : (r.map Prod.fst).Nodup
  named : ∀ f ∈ r, ∀ c ∈ f.1.toList, isNamePart c = true
  lt : ∀ f ∈ r, f.2 < UInt64.size

/-- Some of the fields of a record, each at most once, with values of 64 bits. -/
structure Record.Lists (r ms : Record) : Prop where
  nodup : (ms.map Prod.fst).Nodup
  subset : ms.map Prod.fst ⊆ r.map Prod.fst
  lt : ∀ m ∈ ms, m.2 < UInt64.size

/-- What is documented of a codec. -/
structure JsonCodec.Documented (codec : JsonCodec) : Prop where
  /-- Every field is written, with its value in decimal. -/
  write_isObject {r : Record} : r.Declared → ∃ ms, ms.Perm r ∧ IsObject ms (codec.write r)
  /-- Blanks between the tokens and escapes in the names mean nothing. -/
  read?_layout {r ms : Record} {text : String} : r.Declared → r.Lists ms → IsObject ms text →
    codec.read? r text = codec.read? r (object ms)
  /-- The order of the members means nothing. -/
  read?_perm {r ms ms' : Record} : r.Declared → r.Lists ms → ms.Perm ms' →
    codec.read? r (object ms) = codec.read? r (object ms')
  /-- A missing field is as if listed with the value it has in the record. -/
  read?_missing {r ms : Record} {f : String × Nat} : r.Declared → r.Lists ms → f ∈ r →
    f.1 ∉ ms.map Prod.fst → codec.read? r (object ms) = codec.read? r (object (f :: ms))
  /-- An object that lists all fields as they are declared gives their values. -/
  read?_object {r ms : Record} : r.Declared → r.Lists ms → ms.map Prod.fst = r.map Prod.fst →
    ∃ value, codec.read? r (object ms) = some value ∧ ∀ m ∈ ms, value m.1 = m.2

namespace Record

variable {r ms ms' : Record} {name : String} {n : Nat}

theorem Declared.entries (h : r.Declared) : Entries (entries r) r := by
  refine List.forall₂_map_left_iff.2 (List.forall₂_same.2 fun f hf => ?_)
  exact ⟨.self (h.named f hf), rfl⟩

theorem Declared.isObject (h : r.Declared) : IsObject r (object r) := by
  refine ⟨Json.entries r, h.entries, ?_⟩
  rw [object, String.toList_ofList]
  exact .flatten _

/-- With different names, a member is what is found under its name. -/
theorem lookup_eq_some_iff (h : (ms.map Prod.fst).Nodup) :
    ms.lookup name = some n ↔ (name, n) ∈ ms := by
  induction ms with
  | nil => simp
  | cons m ms ih =>
    obtain ⟨name', n'⟩ := m
    obtain ⟨hm, hms⟩ := List.nodup_cons.1 h
    by_cases hname : name = name'
    · subst hname
      have hnot : (name, n) ∉ ms := fun hmem => hm (List.mem_map.2 ⟨_, hmem, rfl⟩)
      simp [hnot, eq_comm]
    · have hbeq : (name == name') = false := beq_false_of_ne hname
      rw [List.lookup_cons, hbeq]
      simp [hname, ih hms]

theorem lookup_eq_none_iff : ms.lookup name = none ↔ name ∉ ms.map Prod.fst := by
  rw [List.lookup_eq_none_iff]
  constructor
  · intro h hmem
    obtain ⟨m, hm, rfl⟩ := List.mem_map.1 hmem
    exact bne_iff_ne.1 (h m hm) rfl
  · intro h m hm
    exact bne_iff_ne.2 fun heq => h (heq ▸ List.mem_map_of_mem hm)

/-- The record with the values that are listed. -/
def updated (r ms : Record) : Record :=
  r.map fun f => (f.1, (ms.lookup f.1).getD f.2)

theorem names_updated (r ms : Record) : (r.updated ms).map Prod.fst = r.map Prod.fst := by
  rw [updated, List.map_map]
  rfl

/-- The fields that are not listed. -/
def missing (r ms : Record) : Record :=
  r.filter fun f => f.1 ∉ ms.map Prod.fst

theorem mem_missing {f : String × Nat} : f ∈ r.missing ms ↔ f ∈ r ∧ f.1 ∉ ms.map Prod.fst := by
  simp [missing]

theorem Lists.of_cons {m : String × Nat} (h : r.Lists (m :: ms)) :
    r.Lists ms ∧ m.1 ∉ ms.map Prod.fst := by
  obtain ⟨hm, hms⟩ := List.nodup_cons.1 h.nodup
  obtain ⟨-, hsubset⟩ := List.cons_subset.1 h.subset
  obtain ⟨-, hlt⟩ := List.forall_mem_cons.1 h.lt
  exact ⟨⟨hms, hsubset, hlt⟩, hm⟩

theorem Lists.cons {f : String × Nat} (h : r.Lists ms) (hr : r.Declared) (hf : f ∈ r)
    (hnot : f.1 ∉ ms.map Prod.fst) : r.Lists (f :: ms) where
  nodup := List.nodup_cons.2 ⟨hnot, h.nodup⟩
  subset := List.cons_subset.2 ⟨List.mem_map_of_mem hf, h.subset⟩
  lt := List.forall_mem_cons.2 ⟨hr.lt f hf, h.lt⟩

theorem Lists.perm (h : r.Lists ms) (hp : ms.Perm ms') : r.Lists ms' where
  nodup := (hp.map _).nodup_iff.1 h.nodup
  subset := fun _ hname => h.subset ((hp.map _).mem_iff.2 hname)
  lt := fun m hm => h.lt m (hp.mem_iff.2 hm)

theorem Lists.declared (h : r.Lists ms) (hr : r.Declared) : ms.Declared where
  nodup := h.nodup
  named := by
    intro m hm
    obtain ⟨f, hf, hname⟩ := List.mem_map.1 (h.subset (List.mem_map_of_mem hm))
    exact hname ▸ hr.named f hf
  lt := h.lt

theorem Lists.missing_append (h : r.Lists ms) (hr : r.Declared) :
    r.Lists (r.missing ms ++ ms) := by
  refine ⟨?_, ?_, ?_⟩
  · rw [List.map_append]
    refine List.nodup_append'.2 ⟨?_, h.nodup, ?_⟩
    · exact hr.nodup.sublist (List.filter_sublist.map _)
    · intro name hname
      obtain ⟨f, hf, rfl⟩ := List.mem_map.1 hname
      exact (mem_missing.1 hf).2
  · rw [List.map_append]
    refine List.append_subset.2 ⟨?_, h.subset⟩
    exact List.map_subset _ fun f hf => (mem_missing.1 hf).1
  · intro m hm
    rcases List.mem_append.1 hm with hm | hm
    · exact hr.lt m (mem_missing.1 hm).1
    · exact h.lt m hm

/-- All fields, the listed ones with their listed values, in two orders. -/
theorem Lists.missing_append_perm (h : r.Lists ms) (hr : r.Declared) :
    (r.missing ms ++ ms).Perm (r.updated ms) := by
  have hleft : (r.missing ms ++ ms).Nodup := .of_map _ (h.missing_append hr).nodup
  have hright : (r.updated ms).Nodup := .of_map _ (names_updated r ms ▸ hr.nodup)
  refine (List.perm_ext_iff_of_nodup hleft hright).2 fun m => ⟨fun hm => ?_, fun hm => ?_⟩
  · rcases List.mem_append.1 hm with hm | hm
    · obtain ⟨hm, hnot⟩ := mem_missing.1 hm
      refine List.mem_map.2 ⟨m, hm, ?_⟩
      rw [lookup_eq_none_iff.2 hnot, Option.getD_none]
    · obtain ⟨f, hf, hname⟩ := List.mem_map.1 (h.subset (List.mem_map_of_mem hm))
      refine List.mem_map.2 ⟨f, hf, ?_⟩
      rw [hname, (lookup_eq_some_iff h.nodup).2 hm, Option.getD_some]
  · obtain ⟨f, hf, rfl⟩ := List.mem_map.1 hm
    rcases hlookup : ms.lookup f.1 with _ | n
    · exact List.mem_append_left _ (mem_missing.2 ⟨hf, lookup_eq_none_iff.1 hlookup⟩)
    · exact List.mem_append_right _ ((lookup_eq_some_iff h.nodup).1 hlookup)

end Record

namespace JsonCodec

variable {codec : JsonCodec} {r ms : Record} {text : String}

/-- Fields of the record may be listed before what an object lists. -/
theorem Documented.read?_append (h : codec.Documented) (hr : r.Declared) :
    ∀ {fs : Record}, fs ⊆ r → r.Lists (fs ++ ms) →
      codec.read? r (object ms) = codec.read? r (object (fs ++ ms))
  | [], _, _ => rfl
  | f :: fs, hfs, hms => by
    obtain ⟨hf, hfs⟩ := List.cons_subset.1 hfs
    obtain ⟨hms, hnot⟩ := hms.of_cons
    calc codec.read? r (object ms)
      _ = codec.read? r (object (fs ++ ms)) := h.read?_append hr hfs hms
      _ = codec.read? r (object (f :: (fs ++ ms))) := h.read?_missing hr hms hf hnot

/-- An object is read to the values that it lists, and to those of the record for the others. -/
theorem Documented.read?_listed (h : codec.Documented) (hr : r.Declared) (hms : r.Lists ms)
    (ht : IsObject ms text) :
    ∃ value, codec.read? r text = some value ∧
      ∀ f ∈ r, value f.1 = (ms.lookup f.1).getD f.2 := by
  have hall := hms.missing_append hr
  have hperm := hms.missing_append_perm hr
  obtain ⟨value, hread, hvalue⟩ :=
    h.read?_object hr (hall.perm hperm) (Record.names_updated r ms)
  refine ⟨value, ?_, fun f hf => ?_⟩
  · calc codec.read? r text
      _ = codec.read? r (object ms) := h.read?_layout hr hms ht
      _ = codec.read? r (object (r.missing ms ++ ms)) :=
          h.read?_append hr (List.filter_subset_self _) hall
      _ = codec.read? r (object (r.updated ms)) := h.read?_perm hr hall hperm
      _ = some value := hread
  · exact hvalue _ (List.mem_map_of_mem hf)

end JsonCodec

end SqlTypes
