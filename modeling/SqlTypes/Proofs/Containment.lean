import SqlTypes.Proofs.Failures
import SqlTypes.Proofs.PhraseAtoms
import SqlTypes.Proofs.SideBySide

/-!
# What loaders have a say in

A loader is asked where a `RAW` or a `LEGACY` is written, and nowhere else. A description without
these keywords is answered alike whatever the loader is (`Reading.runOn_unasked`). If it is accepted
with one of them, the loader has answered (`exists_answer_of_mem_tokens`), and the raw and legacy
types in an accepted one are the loader's answers (`exists_answer_of_mem_atoms`). So a loader that
refuses everything lets none of these in, and a registry only what is registered
(`parse_contained`).
-/

namespace SqlTypes

open Grammar

/-- No loader is asked for what the tokens describe. -/
structure Unasked (ts : List Token) : Prop where
  raw : .keyword .raw ∉ ts
  legacy : .keyword .legacy ∉ ts

namespace Reading

theorem inStep_unasked : InStep Eq fun c c' => c = c' ∧ Unasked c.rest where
  rest h := congrArg Cursor.rest h.1
  depth h := congrArg Cursor.depth h.1
  passed h := congrArg Cursor.passed h.1
  skip := by
    rintro c _ ⟨rfl, hraw, hlegacy⟩
    exact ⟨rfl, fun h => hraw (List.mem_of_mem_tail h), fun h => hlegacy (List.mem_of_mem_tail h)⟩
  started h := ⟨congrArg Cursor.started h.1, h.2⟩
  entered h := ⟨congrArg Cursor.entered h.1, h.2⟩
  left h := ⟨congrArg Cursor.left h.1, h.2⟩

/-- If no loader is asked, it makes no difference which one there is. -/
theorem runOn_unasked {ts : List Token} (h : Unasked ts) (loader loader' : Loader) (limit : Nat) :
    runOn loader limit ts = runOn loader' limit ts := by
  have hoff : ∀ {c c' : Cursor}, c = c' ∧ Unasked c.rest → ∀ {k : Keyword},
      c.rest.head? = some (.keyword k) → k.isOutside = false := by
    rintro c _ ⟨-, hraw, hlegacy⟩ k hk
    have hmem : .keyword k ∈ c.rest := List.mem_of_head? hk
    cases k with
    | raw => exact absurd hmem hraw
    | legacy => exact absurd hmem hlegacy
    | _ => rfl
  have hmatched : Matched Eq _ Eq (runOn loader limit ts) (runOn loader' limit ts) :=
    inStep_unasked.description (inStep_unasked.base_of_notOutside hoff) limit ⟨rfl, h⟩
  generalize runOn loader limit ts = r at hmatched ⊢
  generalize runOn loader' limit ts = r' at hmatched ⊢
  cases hmatched with
  | ok ht hc => rw [ht, hc.1]
  | error he hc => rw [he.eq, hc.1]

end Reading

theorem parse_of_unasked {s : String} (h : Unasked (tokensOf s)) (limits : Limits)
    (loader loader' : Loader) : parse ⟨limits, loader⟩ s = parse ⟨limits, loader'⟩ s := by
  by_cases hlen : s.utf8ByteSize ≤ limits.maxInputLength
  · rw [parse_eq hlen, parse_eq hlen, Parser.parse_start, Parser.parse_start,
      Reading.runOn_unasked h loader loader' limits.maxNestingDepth]
    exact Parser.fst_after _ _ _ _
  · simp only [parse, report, if_pos (Nat.lt_of_not_le hlen)]

theorem toOption_eq_some_iff {ε α : Type} {e : Except ε α} {a : α} :
    e.toOption = some a ↔ e = .ok a := by
  cases e <;> simp [Except.toOption]

theorem Atom.isOutside_normalized (a : Atom) : a.normalized.isOutside = a.isOutside := by
  cases a <;> rfl

namespace Grammar.AtomPhrase

variable {loader : Loader} {a : AtomPhrase} {u : DataType} {x : Atom}

/-- A raw or legacy type that has a meaning is what the loader has answered. -/
theorem exists_answer (ha : a.isOutside = true) (h : a.meaning? loader = some u) :
    (∃ className snapshot r, loader.restore className snapshot = .ok r ∧
        u = { shape := .atom (.raw r) }) ∨
      ∃ family payload, loader.resolve family payload = .ok u := by
  cases a with
  | raw className snapshot =>
    obtain ⟨r, hr, h⟩ := Option.bind_eq_some_iff.1 h
    exact .inl ⟨className, snapshot, r, toOption_eq_some_iff.1 hr, (make?_eq_some_iff.1 h).2⟩
  | legacy family payload =>
    obtain ⟨f, -, h⟩ := Option.bind_eq_some_iff.1 h
    exact .inr ⟨f, payload, toOption_eq_some_iff.1 h⟩
  | _ => cases ha

/-- Any other atom means an atom that is not one of these either. -/
theorem exists_atom_of_meaning? (ha : a.isOutside = false) (h : a.meaning? loader = some u) :
    ∃ x : Atom, x.isOutside = false ∧ u = { shape := .atom x } := by
  have made : ∀ {y : Atom}, y.isOutside = false → make? (.atom y) = some u →
      ∃ x : Atom, x.isOutside = false ∧ u = { shape := .atom x } :=
    fun hy hmake => ⟨_, (Atom.isOutside_normalized _).trans hy, (make?_eq_some_iff.1 hmake).2⟩
  cases a with
  | plain | integer | doublePrecision | string | bytes | decimal | months => exact made rfl h
  | sized | time | timestamp | localZonedTimestamp | years | name | nameIn | nameInIn =>
    obtain ⟨_, -, h⟩ := Option.bind_eq_some_iff.1 h
    exact made rfl h
  | decimalOf | dayTime =>
    obtain ⟨_, -, h⟩ := Option.bind_eq_some_iff.1 h
    obtain ⟨_, -, h⟩ := Option.bind_eq_some_iff.1 h
    exact made rfl h
  | raw | legacy => cases ha

end Grammar.AtomPhrase

section

variable {context : Context} {s : String} {t : DataType}

/-- A raw or legacy type in an accepted one is an answer of the loader, or in one. -/
theorem exists_answer_of_mem_atoms (h : parse context s = .ok t) {x : Atom} (hx : x ∈ t.atoms)
    (hout : x.isOutside) :
    (∃ className snapshot r, context.loader.restore className snapshot = .ok r ∧ x = .raw r) ∨
      ∃ family payload u, context.loader.resolve family payload = .ok u ∧ x ∈ u.atoms := by
  obtain ⟨p, -, hread⟩ := exists_phrase_of_parse h
  obtain ⟨a, u, -, hu, hx⟩ := p.mem_atoms_of_type? hread hx
  cases ha : a.isOutside with
  | false =>
    obtain ⟨y, hy, rfl⟩ := AtomPhrase.exists_atom_of_meaning? ha hu
    rw [DataType.atoms_atom, List.mem_singleton] at hx
    rw [hx, hy] at hout
    cases hout
  | true =>
    obtain ⟨className, snapshot, r, hr, rfl⟩ | ⟨family, payload, hf⟩ :=
      AtomPhrase.exists_answer ha hu
    · rw [DataType.atoms_atom, List.mem_singleton] at hx
      exact .inl ⟨className, snapshot, r, hr, hx⟩
    · exact .inr ⟨family, payload, u, hf, hx⟩

/-- For a `RAW` or a `LEGACY` in an accepted description the loader has answered. -/
theorem exists_answer_of_mem_tokens (h : parse context s = .ok t) {k : Keyword}
    (hk : k.isOutside = true) (hmem : .keyword k ∈ tokensOf s) :
    (∃ className snapshot r, context.loader.restore className snapshot = .ok r) ∨
      ∃ family payload u, context.loader.resolve family payload = .ok u := by
  obtain ⟨p, hp, hread⟩ := exists_phrase_of_parse h
  obtain hinert | ⟨-, a, ha, hout⟩ := Phrase.mem_tokens (hp ▸ hmem)
  · simp [Token.isInert, hk] at hinert
  · obtain ⟨u, hu⟩ := ha.exists_meaning hread
    obtain ⟨className, snapshot, r, hr, -⟩ | ⟨family, payload, hf⟩ :=
      AtomPhrase.exists_answer hout hu
    · exact .inl ⟨className, snapshot, r, hr⟩
    · exact .inr ⟨family, payload, u, hf⟩

end

namespace Registry

/-- The registry after these raw classes were registered, one after the other. -/
def ofClasses (classes : List String) : Registry :=
  classes.foldl (fun r className => r.registerRaw className) empty

variable {classes : List String}

theorem foldl_registerRaw (r : Registry) :
    (classes.foldl (fun r className => r.registerRaw className) r).rawClasses =
        classes.reverse ++ r.rawClasses ∧
      (classes.foldl (fun r className => r.registerRaw className) r).legacyTypes =
        r.legacyTypes := by
  induction classes generalizing r with
  | nil => exact ⟨rfl, rfl⟩
  | cons className classes ih =>
    obtain ⟨hraw, hlegacy⟩ := ih (r.registerRaw className)
    rw [List.foldl_cons, hraw, hlegacy]
    simp [registerRaw]

theorem hasRaw_ofClasses {className : String} :
    (ofClasses classes).hasRaw className ↔ className ∈ classes := by
  rw [hasRaw, ofClasses, (foldl_registerRaw empty).1]
  simp [empty]

theorem restore_ofClasses_eq_ok_iff {className snapshot : String} {r : RawType} :
    (ofClasses classes).restore className snapshot = .ok r ↔
      (className ∈ classes ∧ snapshot ≠ "") ∧ r = ⟨className, snapshot⟩ := by
  rw [restore]
  split_ifs with hclass hempty
  · simp [hempty]
  · simp [hasRaw_ofClasses.1 hclass, hempty, eq_comm]
  · have hmem : className ∉ classes := fun h => hclass (hasRaw_ofClasses.2 h)
    simp [hmem]

theorem resolve_ofClasses_ne_ok {family : Family} {payload : String} {u : DataType} :
    (ofClasses classes).resolve family payload ≠ .ok u := by
  rw [resolve, ofClasses, (foldl_registerRaw empty).2]
  nofun

end Registry

/-- Without the keywords `RAW` and `LEGACY` in a text, it is answered alike by whatever loader. A
loader that refuses everything lets no text with one of these keywords pass, and no raw or legacy
type into the accepted ones. A registry of raw classes lets only these in, with a configuration that
is not empty, and no legacy types. -/
theorem parse_contained (limits : Limits) (s : String) :
    (.keyword .raw ∉ tokensOf s → .keyword .legacy ∉ tokensOf s → ∀ loader loader' : Loader,
      parse ⟨limits, loader⟩ s = parse ⟨limits, loader'⟩ s) ∧
    ((.keyword .raw ∈ tokensOf s ∨ .keyword .legacy ∈ tokensOf s →
        ∃ f, parse ⟨limits, .refusing⟩ s = .error f) ∧
      ∀ t, parse ⟨limits, .refusing⟩ s = .ok t →
        (∀ r, .raw r ∉ t.atoms) ∧ ∀ family payload, .legacy family payload ∉ t.atoms) ∧
    ∀ classes t, parse ⟨limits, (Registry.ofClasses classes).loader⟩ s = .ok t →
      (∀ r, .raw r ∈ t.atoms → r.className ∈ classes ∧ r.snapshot ≠ "") ∧
        ∀ family payload, .legacy family payload ∉ t.atoms := by
  refine ⟨fun hraw hlegacy => parse_of_unasked ⟨hraw, hlegacy⟩ limits, ⟨fun hmem => ?_, ?_⟩, ?_⟩
  · rcases hparse : parse ⟨limits, .refusing⟩ s with f | t
    · exact ⟨f, rfl⟩
    · obtain ⟨k, hk, hmem⟩ : ∃ k : Keyword, k.isOutside = true ∧ .keyword k ∈ tokensOf s :=
        hmem.elim (fun h => ⟨_, rfl, h⟩) fun h => ⟨_, rfl, h⟩
      obtain ⟨_, _, _, hr⟩ | ⟨_, _, _, hr⟩ := exists_answer_of_mem_tokens hparse hk hmem <;>
        cases hr
  · intro t ht
    have hnone : ∀ x ∈ t.atoms, x.isOutside = true → False := by
      intro x hx hout
      obtain ⟨_, _, _, hr, -⟩ | ⟨_, _, _, hr, -⟩ := exists_answer_of_mem_atoms ht hx hout <;>
        cases hr
    exact ⟨fun r hr => hnone _ hr rfl, fun family payload hl => hnone _ hl rfl⟩
  · intro classes t ht
    have hanswer : ∀ x ∈ t.atoms, x.isOutside = true →
        ∃ r, x = .raw r ∧ r.className ∈ classes ∧ r.snapshot ≠ "" := by
      intro x hx hout
      obtain ⟨_, _, r, hr, rfl⟩ | ⟨_, _, _, hr, -⟩ := exists_answer_of_mem_atoms ht hx hout
      · obtain ⟨hproper, rfl⟩ := Registry.restore_ofClasses_eq_ok_iff.1 hr
        exact ⟨_, rfl, hproper⟩
      · exact absurd hr Registry.resolve_ofClasses_ne_ok
    refine ⟨fun r hr => ?_, fun family payload hl => ?_⟩
    · obtain ⟨_, ⟨rfl⟩, hproper⟩ := hanswer _ hr rfl
      exact hproper
    · obtain ⟨_, heq, -⟩ := hanswer _ hl rfl
      cases heq

/-- Quoted, the keywords are names like others. In use, they need a loader. -/
theorem parse_contained_quoted :
    parse ⟨{}, .refusing⟩ "ROW<`RAW` INT 'LEGACY'>" =
        parse ⟨{}, .verbatim⟩ "ROW<`RAW` INT 'LEGACY'>" ∧
      (∃ f, parse ⟨{}, .refusing⟩ "ARRAY<RAW('a', 'x')>" = .error f) ∧
      ∃ t, parse ⟨{}, (Registry.ofClasses ["b", "a"]).loader⟩ "ARRAY<RAW('a', 'x')>" = .ok t ∧
        .raw ⟨"a", "x"⟩ ∈ t.atoms ∧ "a" ∈ ["b", "a"] ∧ "x" ≠ "" := by
  obtain ⟨hquoted, -⟩ := parse_contained {} "ROW<`RAW` INT 'LEGACY'>"
  obtain ⟨-, ⟨hrefused, -⟩, hregistered⟩ := parse_contained {} "ARRAY<RAW('a', 'x')>"
  let array : DataType :=
    { shape := .collection .array { shape := .atom (.raw ⟨"a", "x"⟩) } }
  have hparse : parse ⟨{}, (Registry.ofClasses ["b", "a"]).loader⟩ "ARRAY<RAW('a', 'x')>" =
      .ok array := by decide +kernel
  have hmem : .raw ⟨"a", "x"⟩ ∈ array.atoms := by decide +kernel
  exact ⟨hquoted (by decide +kernel) (by decide +kernel) _ _,
    hrefused (.inl (by decide +kernel)), array, hparse, hmem, (hregistered _ _ hparse).1 _ hmem⟩

end SqlTypes
