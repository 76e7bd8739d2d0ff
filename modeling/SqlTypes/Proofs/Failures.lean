import SqlTypes.Proofs.Composition
import SqlTypes.Proofs.Pieces

/-!
# What failures tell

A reading never leaves the tokens it is given, and what its faults tell of them is so
(`Reading.description_sound`): a problem is at one of the tokens or at the end, the end of the input
is a problem there only, and what a loader has refused is written at the place of the problem.

So every failure to parse a text tells the truth of it (`parse_truthful`).
-/

namespace SqlTypes

open Grammar

/-- The cursor stands in the tokens `ts`, behind as many of them as it has passed. -/
structure Cursor.Within (ts : List Token) (c : Cursor) : Prop where
  rest : c.rest = ts.drop c.passed
  passed : c.passed ≤ ts.length

/-- What a problem in front of the tokens `ts` tells of them is so. -/
def Problem.Sound (loader : Loader) (ts : List Token) : Problem → Prop
  | .unexpectedEnd => False
  | .legacyRestore family payload cause =>
    (.keyword .legacy :: stringsTokens family payload) <+: ts ∧
      ∀ e, cause = some e ↔ ∃ f : Family, f.name = family ∧ loader.resolve f payload = .error e
  | _ => True

/-- What a fault in the tokens `ts` tells of them is so. -/
def Fault.Sound (loader : Loader) (ts : List Token) : Fault → Prop
  | .problem (.token n) p => n ≤ ts.length ∧ p.Sound loader (ts.drop n)
  | .problem .endOfInput p => p = .unexpectedEnd
  | .rawRestore className snapshot e =>
    (∃ n, (.keyword .raw :: stringsTokens className snapshot) <+: ts.drop n) ∧
      loader.restore className snapshot = .error e

namespace Cursor.Within

variable {ts us : List Token} {t : Token} {c c' : Cursor}

theorem skip (h : c.Within ts) (ht : c.rest.head? = some t) : c.skip.Within ts := by
  obtain ⟨rest, hrest⟩ := List.head?_eq_some_iff.1 ht
  have hdrop := h.rest.symm.trans hrest
  have hlen := congrArg List.length hdrop
  rw [List.length_drop, List.length_cons] at hlen
  refine ⟨?_, ?_⟩
  · rw [Cursor.skip, h.rest, List.tail_drop]
  · simp only [Cursor.skip]
    omega

/-- What is passed is at the cursor. -/
theorem prefix_drop {h : Nat} (hc : c.Within ts) (hp : c.Passes us h c') :
    us <+: ts.drop c.passed :=
  ⟨c'.rest, by rw [← hp.rest, hc.rest]⟩

end Cursor.Within

namespace Reading

variable {loader : Loader} {ts : List Token} {inner : Reading DataType}

/-- Whatever `x` reads, it stays within the tokens `ts`, and its faults are sound. -/
abbrev Sound {α : Type} (loader : Loader) (ts : List Token) (x : Reading α) : Prop :=
  Leads (Cursor.Within ts) x (fun _ => Cursor.Within ts) fun f _ => f.Sound loader ts

theorem sound_of_alike {α : Type} {V : α → α → Prop} {x : Reading α} (hi : Sound loader ts inner)
    (h : Alike (fun n _ => n ≤ ts.length) (fun f _ => f.Sound loader ts) inner inner V x x) :
    Sound loader ts x := by
  have hfault : ∀ (c : Cursor) e e', c.Within ts →
      Fault.Alike (fun n _ => n ≤ ts.length) e e' ∨ e.Sound loader ts → e.Sound loader ts := by
    rintro c e e' - (h | h)
    · cases h with
      | endOfInput => rfl
      | token hn hp =>
        refine ⟨hn, ?_⟩
        unfold Problem.Sound
        split <;> trivial
    · exact h
  exact (h.leads (fun c t hc ht => hc.skip ht) (fun c hc => ⟨0, hc.passed⟩) hfault hi).mono
    fun _ _ hQ => hQ.1

theorem nothing_sound : Sound loader ts nothing :=
  fun _ _ => rfl

section Outside

variable {c : Cursor} {k : Keyword}

theorem twoStrings_leads (hi : Sound loader ts inner) (hc : c.Within ts)
    (ht : c.rest.head? = some (.keyword k)) :
    Leads (· = c.skip) twoStrings
      (fun s c' => c'.Within ts ∧ (.keyword k :: stringsTokens s.1 s.2) <+: ts.drop c.passed)
      fun f _ => f.Sound loader ts := by
  rintro _ rfl
  have hsound := sound_of_alike hi .twoStrings (hc.skip ht)
  rcases hr : twoStrings.run c.skip with ⟨⟨a, b⟩, c₁⟩ | ⟨f, c₁⟩ <;> rw [hr] at hsound
  · exact ⟨hsound, hc.prefix_drop ((twoStrings_passes hr).cons ht)⟩
  · exact hsound

theorem raw_leads (hi : Sound loader ts inner) (hc : c.Within ts)
    (ht : c.rest.head? = some (.keyword .raw)) :
    Leads (· = c.skip) (raw loader c.passed) (fun _ => Cursor.Within ts)
      fun f _ => f.Sound loader ts := by
  refine (twoStrings_leads hi hc ht).bind fun ⟨className, snapshot⟩ => ?_
  dsimp only
  split
  · exact fun c₁ hc₁ => sound_of_alike hi (.make (n := c.passed) hc.passed _) hc₁.1
  · exact fun c₁ hc₁ => ⟨⟨c.passed, hc₁.2⟩, ‹_›⟩

theorem legacy_leads (hi : Sound loader ts inner) (hc : c.Within ts)
    (ht : c.rest.head? = some (.keyword .legacy)) :
    Leads (· = c.skip) (legacy loader c.passed) (fun _ => Cursor.Within ts)
      fun f _ => f.Sound loader ts := by
  refine (twoStrings_leads hi hc ht).bind fun ⟨family, payload⟩ => ?_
  dsimp only
  split
  · rename_i hf
    refine fun c₁ hc₁ => ⟨hc.passed, hc₁.2, fun e => ⟨nofun, ?_⟩⟩
    rintro ⟨f, rfl, -⟩
    rw [Family.ofName?_name] at hf
    cases hf
  · rename_i f hf
    obtain rfl := Family.name_of_ofName? hf
    split
    · exact fun c₁ hc₁ => hc₁.1
    · rename_i e he
      refine fun c₁ hc₁ => ⟨hc.passed, hc₁.2, fun e' => ⟨?_, ?_⟩⟩
      · rintro ⟨rfl⟩
        exact ⟨f, rfl, he⟩
      · rintro ⟨g, hg, he'⟩
        have hfg := Family.ofName?_name g
        rw [hg, hf, Option.some.injEq] at hfg
        rw [← hfg, he, Except.error.injEq] at he'
        rw [he']

end Outside

theorem base_sound (hi : Sound loader ts inner) : Sound loader ts (base loader inner) := by
  have hrefuse : Sound loader ts (refuse (.tokenExpected .keyword) : Reading DataType) :=
    sound_of_alike (V := Eq) hi (.refuse fun _ => trivial)
  intro c hc
  rcases run_base_cases c with ⟨k, ht, hrun⟩ | ⟨_, -, hrun⟩ | hrun <;> rw [hrun]
  · by_cases hraw : k = .raw
    · subst hraw
      exact raw_leads hi hc ht rfl
    by_cases hlegacy : k = .legacy
    · subst hlegacy
      exact legacy_leads hi hc ht rfl
    have hsound : Sound loader ts (afterKeyword loader inner c.passed k) :=
      sound_of_alike hi
        (.afterKeyword (n := c.passed) hc.passed (absurd · hraw) (absurd · hlegacy))
    exact hsound (hc.skip ht)
  · exact sound_of_alike hi .unresolved hc
  · exact hrefuse hc

theorem kept_sound (loader : Loader) (ts : List Token) :
    Kept loader (Cursor.Within ts) fun f _ => f.Sound loader ts where
  skip _ _ hc ht := hc.skip ht
  started _ hc := ⟨hc.rest, hc.passed⟩
  entered _ hc := ⟨hc.rest, hc.passed⟩
  left _ hc := ⟨hc.rest, hc.passed⟩
  tooDeep _ _ _ hc _ := ⟨hc.passed, trivial⟩
  base _ hi := base_sound hi
  nullability t := sound_of_alike nothing_sound (.nullability t)

theorem description_sound (loader : Loader) (limit : Nat) (ts : List Token) :
    Sound loader ts (description loader limit) := by
  have hend : ∀ t, Sound loader ts (ending t) := fun t =>
    sound_of_alike nothing_sound (.ending (fun _ _ _ h => ⟨h, trivial⟩) t)
  intro c hc
  rw [run_description]
  exact ((kept_sound loader ts).typeExpression limit _).bind hend hc

/-- The run over all of the tokens `ts`. -/
def runOn (loader : Loader) (limit : Nat) (ts : List Token) :
    EStateM.Result Fault Cursor DataType :=
  (description loader limit).run { rest := ts }

/-- Where a run ends. -/
def finish : EStateM.Result Fault Cursor α → Cursor
  | .ok _ c | .error _ c => c

end Reading

/-- What a parser answers after a run, and where it stands. -/
def Parser.after (p : Parser) (r : EStateM.Result Fault Cursor DataType) :
    Except Failure DataType × Parser :=
  match r with
  | .ok t cursor => (.ok t, { p with cursor })
  | .error e cursor => (.error (p.failure e), { p with cursor })

theorem Parser.cursor_after (p : Parser) (r : EStateM.Result Fault Cursor DataType) :
    (p.after r).2.cursor = Reading.finish r := by
  cases r <;> rfl

theorem Parser.parse_start (loader : Loader) (limits : Limits) (input : String) :
    (start ⟨limits, loader⟩ input).parse = (start ⟨limits, loader⟩ input).after
      (Reading.runOn loader limits.maxNestingDepth (tokensOf input)) := rfl

/-- What is answered does not depend on the context any more. -/
theorem Parser.fst_after (context context' : Context) (input : String)
    (r : EStateM.Result Fault Cursor DataType) :
    ((start context input).after r).1 = ((start context' input).after r).1 := by
  cases r <;> rfl

/-! ## Failures -/

/-- What a failure at a byte offset tells of the text `s` is so. -/
structure ProblemIn (context : Context) (s : String) (offset : Nat) (kind : ErrorKind)
    (cause : Option LoadError) : Prop where
  /-- It is where a token or the end of the text starts. There is a cause just if a legacy type of
  a known family is written there, and the loader does not resolve it. -/
  atLexeme : ∃ (n : Nat) (l : Lexeme), (tokenize s)[n]? = some l ∧ offset = l.start ∧
    ∀ e, cause = some e ↔ kind = .legacyRestore ∧ ∃ (f : Family) (payload : String),
      (.keyword .legacy :: stringsTokens f.name payload) <+: (tokensOf s).drop n ∧
        context.loader.resolve f payload = .error e
  atCharacter : ∃ before after, s = before ++ after ∧ before.utf8ByteSize = offset
  atEnd : kind = .unexpectedEnd → offset = s.utf8ByteSize
  kind : kind ≠ .rawRestore ∧ kind ≠ .inputTooLong

/-- What a failure to parse the text `s` tells of it is so. -/
def Failure.TrueOf (context : Context) (s : String) : Failure → Prop
  | .parse offset kind _ input cause => input = s ∧ ProblemIn context s offset kind cause
  | .rawRestore className snapshot e =>
    (∃ n, (.keyword .raw :: stringsTokens className snapshot) <+: (tokensOf s).drop n) ∧
      context.loader.restore className snapshot = .error e
  | .inputTooLong length limit => length = s.utf8ByteSize ∧ limit = context.limits.maxInputLength
  | .invalidParameter _ => False

variable {context : Context} {s : String}

/-- There is a lexeme for each token, and one for the end. -/
theorem length_tokenize (s : String) : (tokenize s).length = (tokensOf s).length + 1 := by
  obtain ⟨ps, tail, hs, h⟩ := Piece.exists_cut s.toList
  rw [Piece.tokensOf_eq hs h, Piece.tokenize_eq hs h, List.length_map, List.length_append,
    Piece.length_lexemes, List.length_singleton]

theorem exists_getElem?_tokenize {n : Nat} (hn : n ≤ (tokensOf s).length) :
    ∃ l, (tokenize s)[n]? = some l := by
  exact ⟨_, List.getElem?_eq_getElem (length_tokenize s ▸ Nat.lt_succ_of_le hn)⟩

theorem getElem?_tokenize_length : (tokenize s)[(tokensOf s).length]? =
    some (.endAt s.utf8ByteSize) := by
  obtain ⟨ps, tail, hs, h⟩ := Piece.exists_cut s.toList
  rw [Piece.tokensOf_eq hs h, Piece.tokenize_eq hs h, List.length_map,
    List.getElem?_append_right (by rw [Piece.length_lexemes]), Piece.length_lexemes, Nat.sub_self]
  rfl

/-- A lexeme starts with a character, or at the end. -/
theorem exists_append_start {l : Lexeme} (hl : l ∈ tokenize s) :
    ∃ before after, s = before ++ after ∧ before.utf8ByteSize = l.start := by
  obtain ⟨ps, tail, hs, h⟩ := Piece.exists_cut s.toList
  rw [Piece.tokenize_eq hs h, List.mem_append, List.mem_singleton] at hl
  rcases hl with hl | rfl
  · obtain ⟨t, c, cs, -, -, -, before, after, htoList, hstart, -⟩ :=
      (Piece.lossless hs h).shows l hl
    refine ⟨String.ofList before, String.ofList (c :: cs ++ after), ?_, ?_⟩
    · rw [← String.ofList_append, ← htoList, String.ofList_toList]
    · rw [Text.utf8ByteSize_ofList, hstart]
  · exact ⟨s, "", by simp, rfl⟩

/-- At most one legacy type is written at a place. -/
theorem stringsTokens_unique {k : Keyword} {a b a' b' : String} {ts : List Token}
    (h : (.keyword k :: stringsTokens a b) <+: ts)
    (h' : (.keyword k :: stringsTokens a' b') <+: ts) : a = a' ∧ b = b' := by
  have heq := (List.prefix_of_prefix_length_le h h' (Nat.le_refl _)).eq_of_length rfl
  simp only [stringsTokens, List.cons.injEq, Token.string.injEq] at heq
  exact ⟨heq.2.2.1, heq.2.2.2.2.1⟩

theorem Problem.cause?_eq_some_iff {loader : Loader} {ts : List Token} {p : Problem}
    (hp : p.Sound loader ts) (e : LoadError) :
    p.cause? = some e ↔ p.kind = .legacyRestore ∧ ∃ (f : Family) (payload : String),
      (.keyword .legacy :: stringsTokens f.name payload) <+: ts ∧
        loader.resolve f payload = .error e := by
  cases p with
  | legacyRestore family payload cause =>
    obtain ⟨hwritten, hcause⟩ := hp
    rw [cause?, hcause e]
    constructor
    · rintro ⟨f, rfl, he⟩
      exact ⟨rfl, f, payload, hwritten, he⟩
    · rintro ⟨-, f, payload', hwritten', he⟩
      obtain ⟨rfl, rfl⟩ := stringsTokens_unique hwritten hwritten'
      exact ⟨f, rfl, he⟩
  | _ => exact ⟨nofun, nofun⟩

theorem Problem.Sound.kind_ne {loader : Loader} {ts : List Token} {p : Problem}
    (hp : p.Sound loader ts) : p.kind ≠ .unexpectedEnd := by
  cases p with
  | unexpectedEnd => exact hp.elim
  | _ => nofun

theorem Problem.kind_ne (p : Problem) : p.kind ≠ .rawRestore ∧ p.kind ≠ .inputTooLong := by
  cases p <;> exact ⟨nofun, nofun⟩

theorem Parser.offset_token {n : Nat} {l : Lexeme} (hl : (tokenize s)[n]? = some l) :
    (start context s).offset (.token n) = l.start := by
  simp only [offset, start, hl]

theorem Parser.failure_trueOf {f : Fault} (hf : f.Sound context.loader (tokensOf s)) :
    ((start context s).failure f).TrueOf context s := by
  cases f with
  | rawRestore => exact hf
  | problem place p =>
    refine ⟨rfl, ?_⟩
    cases place with
    | endOfInput =>
      obtain rfl : p = .unexpectedEnd := hf
      have hl := getElem?_tokenize_length (s := s)
      refine ⟨⟨_, _, hl, rfl, fun e => ⟨nofun, nofun⟩⟩, ?_, fun _ => rfl, nofun, nofun⟩
      exact exists_append_start (List.mem_of_getElem? hl)
    | token n =>
      obtain ⟨hn, hp⟩ := hf
      obtain ⟨l, hl⟩ := exists_getElem?_tokenize hn
      rw [offset_token hl]
      exact ⟨⟨n, l, hl, rfl, p.cause?_eq_some_iff hp⟩,
        exists_append_start (List.mem_of_getElem? hl), fun h => absurd h hp.kind_ne, p.kind_ne⟩

/-- What comes of the tokens `ts`, whatever text they are in, if only it is not too long. -/
theorem parse_cases (context : Context) (ts : List Token) :
    (∃ t, ∀ s, tokensOf s = ts → s.utf8ByteSize ≤ context.limits.maxInputLength →
        parse context s = .ok t) ∨
      ∃ f : Fault, f.Sound context.loader ts ∧
        ∀ s, tokensOf s = ts → s.utf8ByteSize ≤ context.limits.maxInputLength →
          parse context s = .error ((Parser.start context s).failure f) := by
  have hsound := Reading.description_sound context.loader context.limits.maxNestingDepth ts
  rcases hr : Reading.runOn context.loader context.limits.maxNestingDepth ts with ⟨t, c⟩ | ⟨f, c⟩
  · refine .inl ⟨t, fun s hs hlen => ?_⟩
    rw [parse_eq hlen, Parser.parse_start, hs, hr]
    rfl
  · refine .inr ⟨f, hsound.error ⟨rfl, Nat.zero_le _⟩ hr, fun s hs hlen => ?_⟩
    rw [parse_eq hlen, Parser.parse_start, hs, hr]
    rfl

/-- A text that is longer than the limit fails with just this, and every other failure tells the
truth of it. -/
theorem parse_truthful (context : Context) (s : String) :
    (∀ length limit, parse context s = .error (.inputTooLong length limit) ↔
      length = s.utf8ByteSize ∧ limit = context.limits.maxInputLength ∧ limit < length) ∧
    ∀ f, parse context s = .error f → f.TrueOf context s := by
  by_cases hlen : s.utf8ByteSize ≤ context.limits.maxInputLength
  · have hne : ∀ length limit, parse context s ≠ .error (.inputTooLong length limit) := by
      intro length limit h
      rcases parse_cases context (tokensOf s) with ⟨t, ht⟩ | ⟨f, -, hf⟩
      · rw [ht s rfl hlen] at h
        cases h
      · rw [hf s rfl hlen] at h
        cases f <;> cases h
    refine ⟨fun length limit => ⟨fun h => absurd h (hne length limit), ?_⟩, fun f h => ?_⟩
    · rintro ⟨rfl, rfl, hlt⟩
      exact absurd hlen (Nat.not_le.2 hlt)
    · rcases parse_cases context (tokensOf s) with ⟨t, ht⟩ | ⟨e, he, hf⟩
      · rw [ht s rfl hlen] at h
        cases h
      · rw [hf s rfl hlen, Except.error.injEq] at h
        exact h ▸ Parser.failure_trueOf he
  · have hparse : parse context s =
        .error (.inputTooLong s.utf8ByteSize context.limits.maxInputLength) := by
      rw [parse, report, if_pos (Nat.not_le.1 hlen)]
    rw [hparse]
    refine ⟨fun length limit => ?_, ?_⟩
    · rw [Except.error.injEq, Failure.inputTooLong.injEq]
      constructor
      · rintro ⟨rfl, rfl⟩
        exact ⟨rfl, rfl, Nat.not_le.1 hlen⟩
      · rintro ⟨rfl, rfl, -⟩
        exact ⟨rfl, rfl⟩
    · rintro _ ⟨rfl⟩
      exact ⟨rfl, rfl⟩

/-- A legacy type of a known family that no loader resolves. -/
def refusedLegacy : Failure :=
  .parse 3 .legacyRestore "Unable to restore the LEGACY type of 'x' with type root 'CHAR'."
    " \n LEGACY('CHAR', 'x')" (some (.unsupported "no legacy type bridge configured"))

theorem refusedLegacy_truthful :
    parse {} " \n LEGACY('CHAR', 'x')" = .error refusedLegacy ∧
      refusedLegacy.TrueOf {} " \n LEGACY('CHAR', 'x')" := by
  have h : parse {} " \n LEGACY('CHAR', 'x')" = .error refusedLegacy := by decide +kernel
  exact ⟨h, (parse_truthful _ _).2 _ h⟩

end SqlTypes
