import Mathlib.Data.List.Nodup
import SqlTypes.DataType.Construction

/-!
# Names of members

Sorting keeps the names and puts equal ones next to each other, so the repeated names are just those
that a list holds twice or more (`mem_repeatedNames`). So the names that pass the check are those
that differ from each other and are not blank (`checkNames_eq_ok_iff`).
-/

namespace SqlTypes

variable {name a b : String} {names : List String}

theorem insertName_perm (name : String) : ∀ names, (insertName name names).Perm (name :: names)
  | [] => .refl _
  | n :: names => by
    rw [insertName]
    split_ifs
    · exact .refl _
    · exact ((insertName_perm name names).cons n).trans (.swap name n names)

theorem sortNames_perm : ∀ names, (sortNames names).Perm names
  | [] => .refl _
  | n :: names => (insertName_perm n _).trans ((sortNames_perm names).cons n)

theorem pairwise_insertName : ∀ {names : List String}, names.Pairwise (· ≤ ·) →
    (insertName name names).Pairwise (· ≤ ·)
  | [], _ => .cons nofun .nil
  | n :: names, h => by
    obtain ⟨hn, hnames⟩ := List.pairwise_cons.1 h
    rw [insertName]
    split_ifs with hle
    · refine .cons (fun m hm => ?_) h
      rcases List.mem_cons.1 hm with rfl | hm
      · exact hle
      · exact String.le_trans hle (hn m hm)
    · refine .cons (fun m hm => ?_) (pairwise_insertName hnames)
      rcases List.mem_cons.1 ((insertName_perm name names).mem_iff.1 hm) with rfl | hm
      · exact (String.le_total n m).resolve_right hle
      · exact hn m hm

theorem pairwise_sortNames : ∀ names, (sortNames names).Pairwise (· ≤ ·)
  | [] => .nil
  | _ :: names => pairwise_insertName (pairwise_sortNames names)

/-- In a sorted list, what is not at the start twice is at the start only. -/
theorem notMem_of_ne (h : (a :: b :: names).Pairwise (· ≤ ·)) (hab : a ≠ b) : a ∉ b :: names := by
  obtain ⟨ha, hb⟩ := List.pairwise_cons.1 h
  obtain ⟨hb, -⟩ := List.pairwise_cons.1 hb
  intro hmem
  rcases List.mem_cons.1 hmem with rfl | hmem
  · exact hab rfl
  · exact hab (String.le_antisymm (ha b List.mem_cons_self) (hb a hmem))

theorem mem_repeatedInSorted : ∀ {names : List String}, names.Pairwise (· ≤ ·) →
    (name ∈ repeatedInSorted names ↔ 2 ≤ names.count name)
  | [], _ => by simp [repeatedInSorted]
  | [a], _ => by
    have hcount : [a].count name ≤ 1 := List.count_le_length
    exact iff_of_false List.not_mem_nil (by omega)
  | a :: b :: names, h => by
    have ih := mem_repeatedInSorted (List.pairwise_cons.1 h).2
    rw [repeatedInSorted]
    by_cases hname : a = name
    · subst hname
      rw [List.count_cons_self]
      by_cases hab : a = b
      · -- whether or not `a` comes again among the later ones, it is in the list once
        subst hab
        have hcount : 0 < (a :: names).count a := List.count_pos_iff.2 List.mem_cons_self
        refine iff_of_true ?_ (by omega)
        split_ifs with hhead
        · exact List.mem_cons_self
        · exact List.mem_of_mem_head? (by simpa using hhead)
      · rw [if_neg (fun hh => hab hh.1), ih, List.count_eq_zero_of_not_mem (notMem_of_ne h hab)]
        simp
    · rw [List.count_cons_of_ne hname, ← ih]
      split_ifs
      · rw [List.mem_cons, or_iff_right (Ne.symm hname)]
      · exact Iff.rfl

/-- What is put in front of the repeated names is not among them, and smaller than all of them. -/
theorem pairwise_repeatedInSorted : ∀ {names : List String}, names.Pairwise (· ≤ ·) →
    (repeatedInSorted names).Pairwise (· < ·)
  | [], _ | [_], _ => .nil
  | a :: b :: names, h => by
    obtain ⟨ha, hnames⟩ := List.pairwise_cons.1 h
    have ih := pairwise_repeatedInSorted hnames
    have hle : ∀ c ∈ repeatedInSorted (b :: names), a ≤ c := fun c hc =>
      have hcount := (mem_repeatedInSorted hnames).1 hc
      ha c (List.count_pos_iff.1 (Nat.lt_of_lt_of_le (by decide) hcount))
    rw [repeatedInSorted]
    split_ifs with hab
    · refine .cons (fun c hc => ?_) ih
      cases hlater : repeatedInSorted (b :: names) with
      | nil => exact absurd (hlater ▸ hc) List.not_mem_nil
      | cons d later =>
        rw [hlater] at hc hle ih hab
        have had : a < d := Std.lt_of_le_of_ne (hle d List.mem_cons_self) fun had =>
          hab.2 (had ▸ rfl)
        rcases List.mem_cons.1 hc with rfl | hc
        · exact had
        · exact Std.lt_trans had ((List.pairwise_cons.1 ih).1 c hc)
    · exact ih

/-- The repeated names are those that the list holds twice or more. -/
theorem mem_repeatedNames : name ∈ repeatedNames names ↔ 2 ≤ names.count name := by
  rw [repeatedNames, mem_repeatedInSorted (pairwise_sortNames names),
    (sortNames_perm names).count_eq]

/-- They are in ascending order, and so each of them is there once. -/
theorem pairwise_repeatedNames (names : List String) : (repeatedNames names).Pairwise (· < ·) :=
  pairwise_repeatedInSorted (pairwise_sortNames names)

theorem repeatedNames_eq_nil_iff : repeatedNames names = [] ↔ names.Nodup := by
  rw [List.eq_nil_iff_forall_not_mem, List.nodup_iff_count_le_one]
  refine forall_congr' fun name => ?_
  rw [mem_repeatedNames]
  omega

theorem Text.isBlank_eq_false_iff {s : String} :
    isBlank s = false ↔ ∃ c ∈ s.toList, isWhiteSpace c = false := by
  rw [isBlank, List.all_eq_false]
  simp

/-- No name is blank, and no two names are the same. -/
structure ProperNames (names : List String) : Prop where
  notBlank : ∀ name ∈ names, ∃ c ∈ name.toList, Text.isWhiteSpace c = false
  nodup : names.Nodup

theorem checkNames_eq_ok_iff {role : MemberRole} :
    checkNames role names = .ok () ↔ ProperNames names := by
  have hblank : names.any Text.isBlank = false ↔
      ∀ name ∈ names, ∃ c ∈ name.toList, Text.isWhiteSpace c = false := by
    simp only [List.any_eq_false, Bool.not_eq_true, Text.isBlank_eq_false_iff]
  have hproper : ProperNames names ↔
      names.any Text.isBlank = false ∧ repeatedNames names = [] := by
    rw [hblank, repeatedNames_eq_nil_iff]
    exact ⟨fun h => ⟨h.1, h.2⟩, fun h => ⟨h.1, h.2⟩⟩
  rw [checkNames, hproper]
  cases names.any Text.isBlank with
  | true => simp
  | false => cases repeatedNames names <;> simp

end SqlTypes
