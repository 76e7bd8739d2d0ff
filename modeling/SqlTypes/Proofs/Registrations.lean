import SqlTypes.Proofs.Canonical
import SqlTypes.Proofs.Refusals

/-!
# What was registered

A registry is filled by any number of registrations, one after the other. For a family and payload
it resolves the type of the last registration under just these (`Registry.resolve_after_of_last`),
and it restores the raw classes that were ever registered (`Registry.hasRaw_after`).

So what is parsed with a registry depends on its history only through the registrations under the
names that are written in the text (`parse_registered`).
-/

namespace SqlTypes

open Grammar

inductive Registration where
  | raw (className : String)
  | legacy (family : Family) (payload : String) (t : DataType)
  | passthrough (family : Family) (payload : String)

namespace Registration

def apply (r : Registry) : Registration → Registry
  | .raw className => r.registerRaw className
  | .legacy family payload t => r.registerLegacy family payload t
  | .passthrough family payload => r.registerPassthrough family payload

/-- The type that is registered, if it is for this family and payload. -/
def type? (family : Family) (payload : String) : Registration → Option DataType
  | .raw _ => none
  | .legacy f p t => if (f, p) = (family, payload) then some t else none
  | .passthrough f p => if (f, p) = (family, payload) then some (.legacy f p) else none

end Registration

namespace Registry

variable {history : List Registration} {g : Registration} {family : Family}
  {payload className : String} {t : DataType}

/-- The registry after these registrations. -/
def after (history : List Registration) : Registry :=
  history.foldl Registration.apply empty

/-- The last registration for a family and payload is for the type `t`. -/
def LastType (history : List Registration) (family : Family) (payload : String) (t : DataType) :
    Prop :=
  ∃ earlier g later, history = earlier ++ g :: later ∧ g.type? family payload = some t ∧
    ∀ h ∈ later, h.type? family payload = none

theorem lookup_registerLegacy (f : Family) (p : String) (t : DataType) (r : Registry) :
    (r.registerLegacy f p t).legacyTypes.lookup (family, payload) =
      if (f, p) = (family, payload) then some t else r.legacyTypes.lookup (family, payload) := by
  rw [registerLegacy, List.lookup_cons]
  by_cases h : (f, p) = (family, payload)
  · simp [h]
  · rw [if_neg h, beq_eq_false_iff_ne.2 (Ne.symm h)]

/-- What one registration makes of the answers. -/
theorem resolve_apply (g : Registration) (r : Registry) :
    (g.apply r).resolve family payload =
      ((g.type? family payload).map Except.ok).getD (r.resolve family payload) := by
  cases g with
  | raw => rfl
  | legacy f p t =>
    rw [Registration.apply, resolve, lookup_registerLegacy, Registration.type?]
    split_ifs <;> rfl
  | passthrough f p =>
    rw [Registration.apply, registerPassthrough, resolve, lookup_registerLegacy, Registration.type?]
    split_ifs <;> rfl

theorem hasRaw_apply (g : Registration) (r : Registry) :
    (g.apply r).hasRaw className ↔ g = .raw className ∨ r.hasRaw className := by
  cases g with
  | raw c =>
    rw [Registration.apply, hasRaw, registerRaw, List.contains_cons, Bool.or_eq_true, beq_iff_eq,
      Registration.raw.injEq, eq_comm, hasRaw]
  | legacy | passthrough => exact ⟨.inr, fun h => h.resolve_left nofun⟩

theorem resolve_foldl_of_none (r : Registry) :
    ∀ {later : List Registration}, (∀ h ∈ later, h.type? family payload = none) →
      (later.foldl Registration.apply r).resolve family payload = r.resolve family payload
  | [], _ => rfl
  | g :: later, h => by
    obtain ⟨hg, hlater⟩ := List.forall_mem_cons.1 h
    rw [List.foldl_cons, resolve_foldl_of_none _ hlater, resolve_apply, hg]
    rfl

theorem resolve_after_of_last (h : LastType history family payload t) :
    (after history).resolve family payload = .ok t := by
  obtain ⟨earlier, g, later, rfl, hg, hlater⟩ := h
  rw [after, List.foldl_append, List.foldl_cons, resolve_foldl_of_none _ hlater, resolve_apply, hg]
  rfl

/-- Some registration for a family and payload is the last one, unless there is none. -/
theorem exists_lastType_or (history : List Registration) (family : Family) (payload : String) :
    (∃ t, LastType history family payload t) ∨ ∀ h ∈ history, h.type? family payload = none := by
  induction history using List.reverseRecOn with
  | nil => exact .inr nofun
  | append_singleton history g ih =>
    rcases hg : g.type? family payload with _ | t
    · have hsnoc : ∀ {later : List Registration}, (∀ h ∈ later, h.type? family payload = none) →
          ∀ h ∈ later ++ [g], h.type? family payload = none :=
        fun hlater => List.forall_mem_append.2 ⟨hlater, List.forall_mem_singleton.2 hg⟩
      rcases ih with ⟨t, earlier, g', later, rfl, hg', hlater⟩ | hnone
      · exact .inl ⟨t, earlier, g', later ++ [g], by simp, hg', hsnoc hlater⟩
      · exact .inr (hsnoc hnone)
    · exact .inl ⟨t, history, g, [], rfl, hg, nofun⟩

theorem resolve_after_of_none (h : ¬∃ t, LastType history family payload t) :
    (after history).resolve family payload = .error (.unknownLegacyType family.name payload) := by
  have hnone := (exists_lastType_or history family payload).resolve_left h
  rw [after, resolve_foldl_of_none _ hnone]
  rfl

theorem hasRaw_after : (after history).hasRaw className ↔ .raw className ∈ history := by
  induction history using List.reverseRecOn with
  | nil => exact iff_of_false nofun nofun
  | append_singleton history g ih =>
    rw [after, List.foldl_append, ← after, List.foldl_cons, List.foldl_nil, hasRaw_apply, ih,
      List.mem_append, List.mem_singleton, or_comm, eq_comm]

theorem restore_after_of_notMem (h : .raw className ∉ history) (snapshot : String) :
    (after history).restore className snapshot = .error (.classNotFound className) := by
  rw [restore, if_neg (mt hasRaw_after.1 h)]

theorem restore_after_empty (h : .raw className ∈ history) :
    (after history).restore className "" =
      .error (.corruptSnapshot className "snapshot is empty") := by
  rw [restore, if_pos (hasRaw_after.2 h), if_pos rfl]

theorem restore_after_of_mem (h : .raw className ∈ history) {snapshot : String}
    (hs : snapshot ≠ "") :
    (after history).restore className snapshot = .ok ⟨className, snapshot⟩ := by
  rw [restore, if_pos (hasRaw_after.2 h), if_neg hs]

theorem resolve_foldl_congr : ∀ (later : List Registration) {r r' : Registry},
    r.resolve family payload = r'.resolve family payload →
      (later.foldl Registration.apply r).resolve family payload =
        (later.foldl Registration.apply r').resolve family payload
  | [], _, _, h => h
  | g :: later, _, _, h => resolve_foldl_congr later (by rw [resolve_apply, resolve_apply, h])

/-- A registration for another family or payload makes no difference, wherever it is. -/
theorem resolve_insert (hg : g.type? family payload = none) (earlier later : List Registration) :
    (after (earlier ++ g :: later)).resolve family payload =
      (after (earlier ++ later)).resolve family payload := by
  rw [after, after, List.foldl_append, List.foldl_append, List.foldl_cons]
  refine resolve_foldl_congr later ?_
  rw [resolve_apply, hg]
  rfl

/-- Nor does another one than that of a raw class for this class. -/
theorem restore_insert (hg : g ≠ .raw className) (earlier later : List Registration)
    (snapshot : String) :
    (after (earlier ++ g :: later)).restore className snapshot =
      (after (earlier ++ later)).restore className snapshot := by
  have hmem : .raw className ∈ earlier ++ g :: later ↔ .raw className ∈ earlier ++ later := by
    simp [hg.symm]
  have hraw := Bool.eq_iff_iff.2 (hasRaw_after.trans (hmem.trans hasRaw_after.symm))
  rw [restore, restore, hraw]

end Registry

/-- A text that does not start with a separator starts with its first token. -/
theorem Parser.offset_zero {s : String} {c : Char} {cs : List Char} (context : Context)
    (hs : s.toList = c :: cs) (hc : Text.isSeparator c = false) :
    (start context s).offset (.token 0) = 0 := by
  have hmem : ∀ {g : List Char}, Separators g → c ∉ g := fun hg h => by simp [hg c h] at hc
  obtain ⟨ps, tail, hjoin, hcut⟩ := Piece.exists_cut s.toList
  have hlexemes := Piece.tokenize_eq hjoin hcut
  rw [hs] at hjoin
  cases ps with
  | nil =>
    cases hjoin
    exact absurd List.mem_cons_self (hmem hcut)
  | cons p ps =>
    obtain ⟨hgap, -⟩ := hcut
    rw [Piece.join] at hjoin
    rw [offset_token (congrArg (·[0]?) hlexemes)]
    rcases hp : p.gap with _ | ⟨d, ds⟩
    · rfl
    · rw [hp, List.cons_append, List.cons.injEq] at hjoin
      rw [hp, hjoin.1] at hgap
      exact absurd List.mem_cons_self (hmem hgap)

/-- In the standard layout, nothing is before the first token. -/
theorem Token.offset_layout {t u : Token} {ts : List Token} (context : Context) (ht : t.Spelled) :
    (Parser.start context (layout (t :: u :: ts))).offset (.token 0) = 0 := by
  obtain ⟨c, cs, htext, hc, -⟩ := take_text ht (endedBy_spelling t u ts)
  have hs := spelling_cons t u ts
  rw [htext, spelling, ← String.toList_join] at hs
  exact Parser.offset_zero context hs hc

namespace Reading

variable {loader : Loader} {c : Cursor} {rest : List Token} {start : Nat} {e : LoadError}

theorem run_twoStrings {a b : String} (hc : c.rest = stringsTokens a b ++ rest) :
    ∃ c', twoStrings.run c = .ok (a, b) c' := by
  have h := twoStrings_outcome hc
  rcases hr : twoStrings.run c with ⟨v, c'⟩ | ⟨f, c'⟩ <;> rw [hr] at h
  · exact ⟨c', by rw [h.1]⟩
  · exact absurd rfl (h.2 (a, b))

theorem fails_raw_of_error {className snapshot : String}
    (hc : c.rest = stringsTokens className snapshot ++ rest)
    (he : loader.restore className snapshot = .error e) :
    Fails (raw loader start) c (.rawRestore className snapshot e) := by
  obtain ⟨c', hs⟩ := run_twoStrings hc
  refine ⟨c', ?_⟩
  rw [raw, run_bind_of_ok hs]
  dsimp only
  rw [he]
  rfl

theorem fails_raw_of_bad {className snapshot : String} {r : RawType} {b : BadParameter}
    (hc : c.rest = stringsTokens className snapshot ++ rest)
    (hr : loader.restore className snapshot = .ok r)
    (hb : DataType.new (.atom (.raw r)) = .error b) :
    Fails (raw loader start) c (.problem (.token start) (.invalidParameter b)) := by
  obtain ⟨c', hs⟩ := run_twoStrings hc
  refine .of_ok hs ?_
  dsimp only
  rw [hr]
  exact fails_make hb start c'

theorem fails_legacy_of_error {family : Family} {payload : String}
    (hc : c.rest = stringsTokens family.name payload ++ rest)
    (he : loader.resolve family payload = .error e) :
    Fails (legacy loader start) c
      (.problem (.token start) (.legacyRestore family.name payload (some e))) := by
  obtain ⟨c', hs⟩ := run_twoStrings hc
  refine ⟨c', ?_⟩
  rw [legacy, run_bind_of_ok hs]
  dsimp only
  rw [Family.ofName?_name]
  dsimp only
  rw [he]
  rfl

end Reading

/-! ## Parsing -/

section

variable {limits : Limits} {loader : Loader} {input : String}

/-- The raw type of a class. It cannot be made if the class has no name. -/
def DataType.raw (className snapshot : String) : DataType :=
  { shape := .atom (.raw ⟨className, snapshot⟩) }

theorem DataType.new_raw (className snapshot : String) :
    DataType.new (.atom (.raw ⟨className, snapshot⟩)) =
      if className = "" then .error .emptyClassName else .ok (.raw className snapshot) := by
  by_cases h : className = ""
  · rw [h]
    rfl
  · rw [if_neg h, DataType.new_eq_ok_iff]
    exact ⟨if_neg h, rfl⟩

variable (hdepth : 1 ≤ limits.maxNestingDepth)
include hdepth

/-- A legacy type is what the loader resolves, or refused at its start. -/
theorem parse_legacy {family : Family} {payload : String}
    (hlen : (DataType.legacy family payload).canonical.utf8ByteSize ≤ limits.maxInputLength) :
    let text := (DataType.legacy family payload).canonical
    parse ⟨limits, loader⟩ text =
      (loader.resolve family payload).mapError fun e =>
        let p : Problem := .legacyRestore family.name payload (some e)
        .parse 0 .legacyRestore p.detail text (some e) := by
  intro text
  have htokens : (AtomPhrase.legacy family.name payload).tokens = tokensOf text :=
    DataType.tokensOf_canonical (.legacy family payload)
  have hoffset : (Parser.start ⟨limits, loader⟩ text).offset (.token 0) = 0 :=
    Token.offset_layout _ (Token.spelled_keyword .legacy)
  obtain ⟨levels, hlevels⟩ := Nat.exists_eq_add_of_le' hdepth
  rcases hr : loader.resolve family payload with e | t
  · rw [parse_of_fails hlen hlevels htokens.symm fun c hc _ =>
      Reading.fails_legacy_of_error (hc.trans (List.append_nil _).symm) hr, Parser.failure, hoffset]
    rfl
  · refine parse_of_meaning? hlen hdepth htokens ?_
    rw [AtomPhrase.meaning?, Family.ofName?_name]
    exact congrArg Except.toOption hr

/-- A raw type is what the loader restores. It is refused at its start if its class has no name. -/
theorem parse_raw {className snapshot : String}
    (hlen : (DataType.raw className snapshot).canonical.utf8ByteSize ≤ limits.maxInputLength) :
    let text := (DataType.raw className snapshot).canonical
    parse ⟨limits, loader⟩ text =
      match loader.restore className snapshot with
      | .ok r => (DataType.new (.atom (.raw r))).mapError fun b =>
        .parse 0 .invalidParameter b.message text none
      | .error e => .error (.rawRestore className snapshot e) := by
  intro text
  have htokens : (AtomPhrase.raw className snapshot).tokens = tokensOf text :=
    DataType.tokensOf_canonical (.raw className snapshot)
  have hoffset : (Parser.start ⟨limits, loader⟩ text).offset (.token 0) = 0 :=
    Token.offset_layout _ (Token.spelled_keyword .raw)
  obtain ⟨levels, hlevels⟩ := Nat.exists_eq_add_of_le' hdepth
  rcases hr : loader.restore className snapshot with e | r
  · exact parse_of_fails hlen hlevels htokens.symm fun c hc _ =>
      Reading.fails_raw_of_error (hc.trans (List.append_nil _).symm) hr
  rcases hb : DataType.new (.atom (.raw r)) with b | t
  · rw [parse_of_fails hlen hlevels htokens.symm fun c hc _ =>
      Reading.fails_raw_of_bad (hc.trans (List.append_nil _).symm) hr hb, Parser.failure, hoffset]
    dsimp only
    rw [hb]
    rfl
  · have hmeaning : (AtomPhrase.raw className snapshot).meaning? loader = some t := by
      rw [AtomPhrase.meaning?, hr]
      exact congrArg Except.toOption hb
    rw [parse_of_meaning? hlen hdepth htokens hmeaning]
    dsimp only
    rw [hb]
    rfl

end

/-- A parser asks a registry after any registrations, in any order. A legacy type is what the last
registration for its family and payload says. A raw type is there if its class was ever registered
and both its texts are not empty. Everything else is refused, and whatever is registered under other
keys makes no difference. -/
theorem parse_registered (limits : Limits) (history : List Registration) (family : Family)
    (payload className snapshot : String) (hdepth : 1 ≤ limits.maxNestingDepth)
    (hlegacy : (DataType.legacy family payload).canonical.utf8ByteSize ≤ limits.maxInputLength)
    (hraw : (DataType.raw className snapshot).canonical.utf8ByteSize ≤ limits.maxInputLength) :
    let legacyText := (DataType.legacy family payload).canonical
    let rawText := (DataType.raw className snapshot).canonical
    let answer := fun history input => parse ⟨limits, (Registry.after history).loader⟩ input
    ((∀ t, Registry.LastType history family payload t → answer history legacyText = .ok t) ∧
      ((¬∃ t, Registry.LastType history family payload t) →
        let cause := LoadError.unknownLegacyType family.name payload
        let problem := Problem.legacyRestore family.name payload (some cause)
        answer history legacyText =
          .error (.parse 0 .legacyRestore problem.detail legacyText (some cause)))) ∧
    ((answer history rawText = .ok (.raw className snapshot) ↔
        className ≠ "" ∧ .raw className ∈ history ∧ snapshot ≠ "") ∧
      (.raw className ∉ history →
        answer history rawText =
          .error (.rawRestore className snapshot (.classNotFound className))) ∧
      (.raw className ∈ history → snapshot = "" →
        answer history rawText = .error
          (.rawRestore className snapshot (.corruptSnapshot className "snapshot is empty"))) ∧
      (.raw className ∈ history → className = "" → snapshot ≠ "" →
        answer history rawText =
          .error (.parse 0 .invalidParameter BadParameter.emptyClassName.message rawText none))) ∧
    ∀ earlier g later, history = earlier ++ g :: later →
      (g.type? family payload = none →
        answer history legacyText = answer (earlier ++ later) legacyText) ∧
      (g ≠ .raw className → answer history rawText = answer (earlier ++ later) rawText) := by
  intro legacyText rawText answer
  have hresolve : ∀ history, answer history legacyText = _ :=
    fun history => parse_legacy hdepth hlegacy
  have hrestore : ∀ history, answer history rawText = _ := fun history => parse_raw hdepth hraw
  simp only [Registry.loader] at hresolve hrestore
  refine ⟨⟨fun t ht => ?_, fun hnone => ?_⟩, ⟨?_, fun hmem => ?_, fun hmem hs => ?_,
    fun hmem hc hs => ?_⟩, ?_⟩
  · rw [hresolve, Registry.resolve_after_of_last ht]
    rfl
  · rw [hresolve, Registry.resolve_after_of_none hnone]
    rfl
  · rw [hrestore]
    by_cases hmem : .raw className ∈ history
    · by_cases hs : snapshot = ""
      · rw [hs, Registry.restore_after_empty hmem]
        simp
      · rw [Registry.restore_after_of_mem hmem hs]
        dsimp only
        rw [DataType.new_raw]
        split_ifs with hc <;> simp [hc, hmem, hs, Except.mapError]
    · rw [Registry.restore_after_of_notMem hmem]
      simp [hmem]
  · rw [hrestore, Registry.restore_after_of_notMem hmem]
  · subst hs
    rw [hrestore, Registry.restore_after_empty hmem]
  · subst hc
    rw [hrestore, Registry.restore_after_of_mem hmem hs]
    rfl
  · rintro earlier g later rfl
    refine ⟨fun hg => ?_, fun hg => ?_⟩
    · rw [hresolve, hresolve, Registry.resolve_insert hg]
    · rw [hrestore, hrestore, Registry.restore_insert hg]

/-- Registered twice, with another payload after that. -/
def registeredTwice : List Registration :=
  [.raw "it's", .legacy .char "x" { shape := .atom (.plain .date) },
    .legacy .char "x" { shape := .atom (.plain .int), nullable := false }, .passthrough .char "X"]

theorem parse_registered_twice :
    let context : Context := ⟨{}, (Registry.after registeredTwice).loader⟩
    (DataType.legacy .char "x").canonical = "LEGACY('CHAR', 'x')" ∧
      (DataType.raw "it's" "y").canonical = "RAW('it''s', 'y')" ∧
      parse context "LEGACY('CHAR', 'x')" =
        .ok { shape := .atom (.plain .int), nullable := false } ∧
      parse context "RAW('it''s', 'y')" = .ok (.raw "it's" "y") := by
  intro context
  have hlegacy : (DataType.legacy .char "x").canonical = "LEGACY('CHAR', 'x')" := by decide +kernel
  have hraw : (DataType.raw "it's" "y").canonical = "RAW('it''s', 'y')" := by decide +kernel
  have hlast : Registry.LastType registeredTwice .char "x"
      { shape := .atom (.plain .int), nullable := false } :=
    ⟨[_, _], _, [_], rfl, rfl, List.forall_mem_singleton.2 (by decide)⟩
  obtain ⟨⟨hresolved, -⟩, ⟨hrestored, -⟩, -⟩ := parse_registered {} registeredTwice .char "x" "it's"
    "y" (by decide) (hlegacy ▸ by decide) (hraw ▸ by decide)
  rw [hlegacy] at hresolved
  rw [hraw] at hrestored
  exact ⟨hlegacy, hraw, hresolved _ hlast, hrestored.2 ⟨by decide, List.mem_cons_self, by decide⟩⟩

end SqlTypes
