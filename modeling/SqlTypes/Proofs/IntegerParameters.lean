import SqlTypes.Proofs.Canonical
import SqlTypes.Proofs.Refusals
import SqlTypes.Proofs.Relayout
import SqlTypes.Proofs.Validity

/-!
# Numbers in brackets

A number in a description is read as the value of its digits, however many there are, or refused
where it stands if it is larger than any parameter may be. What a type does not allow is blamed on
the number as well (`Reading.Refuses`).
-/

namespace SqlTypes

open Grammar Cursor

/-- The value of a run of digits. -/
def Grammar.value (digits : String) : Nat :=
  Nat.ofDigitChars 10 digits.toList 0

theorem Grammar.number?_of_le {d : String} (h : value d ≤ largestInteger) :
    number? d = some (value d) :=
  if_pos h

theorem Parameter.check_omitted (p : Parameter) : p.check p.omitted = .ok () :=
  if_pos p.inRange_omitted

theorem endsBase_nil : EndsBase [] :=
  nofun

/-- The types that are written with one number in brackets. -/
inductive NumberedForm where
  | sized (s : Sized)
  | decimal (w : DecimalWord)
  | time (without : Bool)
  | timestamp (z : Zone)
  | localZonedTimestamp
  | years (toMonth : Bool)
  /-- A range from days on, with a number for days. -/
  | days (range : DayTime) (h : range.hasDay = true)
  /-- A range down to seconds, with a number for their fractions. -/
  | fraction (range : DayTime) (h : range.hasFraction = true)

namespace NumberedForm

def phrase (d : String) : NumberedForm → AtomPhrase
  | sized s => .sized s (some d)
  | decimal w => .decimalOf w d none
  | time without => .time (some d) without
  | timestamp z => .timestamp (some d) z
  | localZonedTimestamp => .localZonedTimestamp (some d)
  | years toMonth => .years (some d) toMonth
  | days range _ => .dayTime range (some d) none
  | fraction range _ => .dayTime range none (some d)

/-- The atom with this number. -/
def atom (n : Nat) : NumberedForm → Atom
  | sized s => .sized s n
  | decimal _ => .decimal n omittedScale
  | time _ => .temporal .time n
  | timestamp z => .temporal z.temporal n
  | localZonedTimestamp => .temporal .localZonedTimestamp n
  | years toMonth => .yearMonth (if toMonth then .yearToMonth else .year) n
  | days range _ => .dayTime range n Parameter.fractionPrecision.omitted
  | fraction range _ => .dayTime range Parameter.dayPrecision.omitted n

/-- What the number is. -/
def parameter : NumberedForm → Parameter
  | sized s => .length s
  | decimal _ => .decimalPrecision
  | time _ => .precision .time
  | timestamp z => .precision z.temporal
  | localZonedTimestamp => .precision .localZonedTimestamp
  | years _ => .yearPrecision
  | days .. => .dayPrecision
  | fraction .. => .fractionPrecision

variable {f : NumberedForm} {n : Nat}

theorem normalized_atom : (f.atom n).normalized = f.atom n := by
  cases f with
  | sized | decimal | time | timestamp | localZonedTimestamp => rfl
  | years toMonth => cases toMonth <;> rfl
  | days range h => simp [atom, Atom.normalized, h]
  | fraction range h => simp [atom, Atom.normalized, h]

theorem check_atom : (f.atom n).check = f.parameter.check n := by
  cases f with
  | sized | time | timestamp | localZonedTimestamp | years => rfl
  | decimal =>
    have hscale : omittedScale ≤ n := Nat.zero_le n
    simp only [atom, parameter, Atom.check, if_pos hscale]
    cases Parameter.decimalPrecision.check n <;> rfl
  | days =>
    simp only [atom, parameter, Atom.check, Parameter.check_omitted]
    cases Parameter.dayPrecision.check n <;> rfl
  | fraction =>
    simp only [atom, parameter, Atom.check, Parameter.check_omitted]
    rfl

/-- The number decides whether there is such a type. -/
theorem new_atom : DataType.new (.atom (f.atom n)) =
    if f.parameter.InRange n then .ok { shape := .atom (f.atom n) }
    else .error (.outOfRange f.parameter) := by
  rw [DataType.new, Shape.normalized, normalized_atom, Shape.check, check_atom, Parameter.check]
  split_ifs <;> rfl

theorem spelled_tokens (f : NumberedForm) {d : String} (hd : (Token.integer d).Spelled) :
    ∀ t ∈ (f.phrase d).tokens, t.Spelled := by
  cases f with
  | sized | decimal | localZonedTimestamp =>
    simp [phrase, AtomPhrase.tokens, scaleTokens, parameterTokens, hd]
  | time without =>
    cases without <;> simp [phrase, AtomPhrase.tokens, Zone.tokens, parameterTokens, hd]
  | timestamp z =>
    cases z <;> simp [phrase, AtomPhrase.tokens, Zone.tokens, parameterTokens, hd]
  | years toMonth =>
    cases toMonth <;> simp [phrase, AtomPhrase.tokens, monthTokens, parameterTokens, hd]
  | days range | fraction range =>
    cases range <;> simp [phrase, AtomPhrase.tokens, precisionTokens, endTokens, parameterTokens,
      DayTime.hasDay, DayTime.hasFraction, DayTime.first, DayTime.last, hd]

end NumberedForm

/-- The descriptions with one number in brackets, or with two. -/
inductive Grammar.WithNumbers : List String → AtomPhrase → Prop
  | one (f : NumberedForm) (d : String) : WithNumbers [d] (f.phrase d)
  | decimal (w : DecimalWord) (d₁ d₂ : String) :
    WithNumbers [d₁, d₂] (.decimalOf w d₁ (some d₂))
  | interval (d₁ d₂ : String) :
    WithNumbers [d₁, d₂] (.dayTime .dayToSecond (some d₁) (some d₂))

/-- Any runs of digits can be the numbers. -/
theorem Grammar.WithNumbers.tokensOf_layout {ds : List String} {a : AtomPhrase}
    (h : WithNumbers ds a) (hd : ∀ d ∈ ds, (Token.integer d).Spelled) :
    tokensOf (Token.layout a.tokens) = a.tokens := by
  refine Token.tokensOf_layout ?_
  cases h with
  | one f d => exact f.spelled_tokens (hd d List.mem_cons_self)
  | decimal w d₁ d₂ =>
    have h₁ := hd d₁ (by simp)
    have h₂ := hd d₂ (by simp)
    simp [AtomPhrase.tokens, scaleTokens, h₁, h₂]
  | interval d₁ d₂ =>
    have h₁ := hd d₁ (by simp)
    have h₂ := hd d₂ (by simp)
    simp [AtomPhrase.tokens, precisionTokens, endTokens, parameterTokens, DayTime.hasDay,
      DayTime.hasFraction, DayTime.first, DayTime.last, h₁, h₂]

namespace Reading

variable {c c₁ : Cursor} {rest : List Token} {d : String} {n blamed start : Nat}

theorem run_integer (hc : c.rest = .integer d :: rest) (hd : value d ≤ largestInteger) :
    integer.run c = .ok ⟨value d, c.passed⟩ c.skip := by
  have ht := head?_of_rest hc
  have hn : Text.numberUpTo? largestInteger d.toList = some (value d) :=
    (number?_eq d).symm.trans (number?_of_le hd)
  simp only [integer, EStateM.run_bind, run_peek, ht, run_here, hn, run_advance ht]
  rfl

theorem fails_integer (hc : c.rest = .integer d :: rest) (hd : largestInteger < value d) :
    Fails integer c (.problem (.token c.passed) .invalidInteger) := by
  have ht := head?_of_rest hc
  have hn : Text.numberUpTo? largestInteger d.toList = none :=
    (number?_eq d).symm.trans (if_neg (Nat.not_le.2 hd))
  refine ⟨c, ?_⟩
  simp only [integer, EStateM.run_bind, run_peek, ht, run_here, hn]
  rfl

theorem run_parameterOr (o : Numeral) (hc : c.rest = parameterTokens (some d) ++ rest)
    (hd : value d ≤ largestInteger) :
    (parameterOr o).run c = .ok ⟨value d, c.passed + 1⟩ c.skip.skip.skip := by
  have hc₁ := skip_rest hc
  rw [parameterOr, run_bind_of_ok (run_accept_self hc)]
  simp only [if_true]
  rw [run_bind_of_ok (run_integer hc₁ hd), run_bind_of_ok (run_expectSymbol (skip_rest hc₁))]
  rfl

theorem fails_parameterOr (o : Numeral) (hc : c.rest = parameterTokens (some d) ++ rest)
    (hd : largestInteger < value d) :
    Fails (parameterOr o) c (.problem (.token (c.passed + 1)) .invalidInteger) :=
  .of_ok (run_accept_self hc) ((fails_integer (skip_rest hc) hd).bind _)

theorem run_parameterOr_omitted (o : Numeral) (hc : c.rest = rest)
    (hr : rest.head? ≠ some (.symbol .openParen)) : (parameterOr o).run c = .ok o c := by
  rw [parameterOr, run_bind_of_ok (run_accept_other hc hr)]
  rfl

/-- In front of the number `d`, which is token `n`, the reading stops at the number if it is too
large. If its value makes the atom a bad one, it stops at the token that is to blame. -/
structure Refuses (x : Reading DataType) (c : Cursor) (d : String) (n blamed : Nat)
    (atom : Nat → Atom) : Prop where
  large : largestInteger < value d → Fails x c (.problem (.token n) .invalidInteger)
  bad : value d ≤ largestInteger → ∀ b, DataType.new (.atom (atom (value d))) = .error b →
    Fails x c (.problem (.token blamed) (.invalidParameter b))

variable {α : Type} {x : Reading α} {a : α} {g : α → Reading DataType} {atom : Nat → Atom}

theorem Refuses.of_ok (hx : x.run c = .ok a c₁) (h : Refuses (g a) c₁ d n blamed atom) :
    Refuses (x >>= g) c d n blamed atom where
  large hd := .of_ok hx (h.large hd)
  bad hd b hb := .of_ok hx (h.bad hd b hb)

/-- What is done with the number stops in the second case, the number itself in the first. -/
theorem refuses_parameterOr (o : Numeral) {g : Numeral → Reading DataType}
    (hc : c.rest = parameterTokens (some d) ++ rest)
    (hg : ∀ b (c₁ : Cursor), c₁.rest = rest → DataType.new (.atom (atom (value d))) = .error b →
      Fails (g ⟨value d, c.passed + 1⟩) c₁ (.problem (.token blamed) (.invalidParameter b))) :
    Refuses (parameterOr o >>= g) c d (c.passed + 1) blamed atom where
  large hd := (fails_parameterOr o hc hd).bind g
  bad hd b hb := .of_ok (run_parameterOr o hc hd)
    (hg b _ (skip_rest (skip_rest (skip_rest hc))) hb)

/-- Where what is behind the number can be read, the type made of both decides. -/
theorem refuses_withParameter {p : Parameter} {behind : Reading α} {made : Nat → α → Atom}
    (hc : c.rest = parameterTokens (some d) ++ rest)
    (hbehind : ∀ c₁ : Cursor, c₁.rest = rest → ∃ c₂, behind.run c₁ = .ok a c₂) :
    Refuses (withParameter start p behind made) c d (c.passed + 1) (c.passed + 1) (made · a) := by
  refine refuses_parameterOr _ hc fun b c₁ hc₁ hb => ?_
  obtain ⟨c₂, hrun⟩ := hbehind c₁ hc₁
  exact .of_ok hrun (fails_make hb _ _)

theorem refuses_sized {s : Sized} (hc : c.rest = parameterTokens (some d) ++ rest) :
    Refuses (sized start s) c d (c.passed + 1) (c.passed + 1) (.sized s) :=
  refuses_withParameter (a := ()) hc fun c₁ _ => ⟨c₁, rfl⟩

theorem refuses_time {b : Bool} (hr : EndsBase rest)
    (hc : c.rest = parameterTokens (some d) ++
      ((if b then Zone.without else Zone.unmarked).tokens ++ rest)) :
    Refuses (time start) c d (c.passed + 1) (c.passed + 1) (.temporal .time) := by
  refine refuses_withParameter (a := ()) hc fun c₁ hc₁ => ?_
  obtain ⟨_, c₂, hz, -⟩ := (withoutZone_outcome hc₁ hr).exists_ok (a := ()) trivial
  exact ⟨c₂, hz⟩

theorem refuses_timestamp {z : Zone} (hr : EndsBase rest)
    (hc : c.rest = parameterTokens (some d) ++ (z.tokens ++ rest)) :
    Refuses (timestamp start) c d (c.passed + 1) (c.passed + 1) (.temporal z.temporal) := by
  refine refuses_withParameter hc fun c₁ hc₁ => ?_
  obtain ⟨t, c₂, hz, rfl, -⟩ := (zone_outcome hc₁ hr).exists_ok rfl
  exact ⟨c₂, hz⟩

theorem refuses_localZonedTimestamp (hc : c.rest = parameterTokens (some d) ++ rest) :
    Refuses (localZonedTimestamp start) c d (c.passed + 1) (c.passed + 1)
      (.temporal .localZonedTimestamp) :=
  refuses_withParameter (a := ()) hc fun c₁ _ => ⟨c₁, rfl⟩

/-- A precision alone. -/
theorem refuses_decimal (hc : c.rest = parameterTokens (some d) ++ rest) :
    Refuses (decimal start) c d (c.passed + 1) (c.passed + 1)
      fun v => .decimal v omittedScale := by
  have hc₁ := skip_rest hc
  refine .of_ok (run_accept_self hc)
    ⟨fun hd => (fails_integer hc₁ hd).bind _, fun hd b hb => ?_⟩
  have hc₂ := skip_rest hc₁
  have hscale : scale.run c.skip.skip = .ok omittedScale c.skip.skip := by
    rw [scale, run_bind_of_ok (run_accept_other hc₂ (by simp))]
    rfl
  exact .of_ok (run_integer hc₁ hd) (.of_ok hscale
    (.of_ok (run_expectSymbol hc₂) (fails_make hb _ _)))

section TwoNumbers

variable {d₁ d₂ : String}

/-- A precision and a scale. Where both are numbers, a bad scale is blamed on the precision. -/
theorem refuses_scale
    (hc : c.rest = .symbol .openParen :: .integer d₁ :: (scaleTokens (some d₂) ++
      .symbol .closeParen :: rest)) :
    (largestInteger < value d₁ →
        Fails (decimal start) c (.problem (.token (c.passed + 1)) .invalidInteger)) ∧
      (value d₁ ≤ largestInteger →
        Refuses (decimal start) c d₂ (c.passed + 3) (c.passed + 1) (.decimal (value d₁))) := by
  have hc₁ := skip_rest hc
  have hc₂ := skip_rest hc₁
  have hc₃ := skip_rest hc₂
  refine ⟨fun h₁ => ?_, fun h₁ => .of_ok (run_accept_self hc) (.of_ok (run_integer hc₁ h₁)
    ⟨fun h₂ => ?_, fun h₂ b hb => ?_⟩)⟩
  · exact .of_ok (run_accept_self hc) ((fails_integer hc₁ h₁).bind _)
  · exact .bind (.of_ok (run_accept_self hc₂) ((fails_integer hc₃ h₂).bind _)) _
  · have hscale : scale.run c.skip.skip = .ok (value d₂) c.skip.skip.skip.skip := by
      rw [scale, run_bind_of_ok (run_accept_self hc₂)]
      simp only [if_true]
      rw [run_bind_of_ok (run_integer hc₃ h₂)]
      rfl
    exact .of_ok hscale (.of_ok (run_expectSymbol (skip_rest hc₃)) (fails_make hb _ _))

end TwoNumbers

theorem refuses_years {b : Bool} (hr : EndsBase rest)
    (hc : c.rest = .keyword .year :: (parameterTokens (some d) ++ (monthTokens b ++ rest))) :
    Refuses (interval start) c d (c.passed + 2) (c.passed + 2)
      (.yearMonth (if b then .yearToMonth else .year)) := by
  refine .of_ok (run_unit (u := .year) hc)
    (refuses_parameterOr _ (skip_rest hc) fun _ _ hc₁ hb => ?_)
  obtain ⟨r, c₂, hrun, rfl, hp⟩ := (yearRange_outcome hc₁ hr).exists_ok rfl
  exact .of_ok hrun (.of_ok (run_endOfRange (hp.rest_eq hc₁) hr) (fails_make hb _ _))

variable {r : DayTime} {days : Numeral}

/-- A number of fractions of seconds behind a range. Days that are out of range are to blame before
it. -/
theorem refuses_fromUnit (single : DayTime) (hs : single.first = single.last)
    (hf : r.first = single.first) (hsecond : r.hasFraction = true) (hr : EndsBase rest)
    (hc : c.rest = endTokens r ++ (parameterTokens (some d) ++ rest)) :
    let literal := c.passed + (endTokens r).length + 1
    Refuses (fromUnit start single days) c d literal
      (if Parameter.dayPrecision.InRange days.value then literal else days.origin)
      (.dayTime r days.value) := by
  have hfraction : fraction start r = parameterOr ⟨Parameter.fractionPrecision.omitted, start⟩ :=
    if_pos hsecond
  obtain ⟨_, c₁, hrange, rfl, hp⟩ :=
    (dayTimeRange_outcome hs hf hc (by simp [parameterTokens])).exists_ok rfl
  refine .of_ok hrange ?_
  rw [hfraction, ← hp.passed]
  exact refuses_parameterOr _ (hp.rest_eq hc) fun b c₂ hc₂ hb =>
    .of_ok (run_endOfRange hc₂ hr) (fails_make hb _ _)

/-- Without a number of fractions, days that are out of range are to blame. -/
theorem fails_fromUnit (single : DayTime) {b : BadParameter} (hs : single.first = single.last)
    (hf : r.first = single.first) (hr : EndsBase rest) (hc : c.rest = endTokens r ++ rest)
    (hdays : ¬Parameter.dayPrecision.InRange days.value)
    (hb : DataType.new (.atom (.dayTime r days.value Parameter.fractionPrecision.omitted)) =
      .error b) :
    Fails (fromUnit start single days) c (.problem (.token days.origin) (.invalidParameter b)) := by
  obtain ⟨_, c₁, hrange, hr', hp⟩ :=
    (dayTimeRange_outcome hs hf hc (hr.head?_ne rfl)).exists_ok rfl
  rw [hr'] at hrange
  have hc₁ := hp.rest_eq hc
  have hfraction : (fraction start r).run c₁ =
      .ok ⟨Parameter.fractionPrecision.omitted, start⟩ c₁ := by
    rw [fraction]
    split_ifs
    · exact run_parameterOr_omitted _ hc₁ (hr.head?_ne rfl)
    · rfl
  refine .of_ok hrange (.of_ok hfraction (.of_ok (run_endOfRange hc₁ hr) ?_))
  rw [if_neg hdays]
  exact fails_make hb _ _

theorem refuses_days (hday : r.hasDay = true) (hr : EndsBase rest)
    (hc : c.rest = .keyword .day :: (parameterTokens (some d) ++ (endTokens r ++ rest))) :
    Refuses (interval start) c d (c.passed + 2) (c.passed + 2)
      fun v => .dayTime r v Parameter.fractionPrecision.omitted := by
  refine .of_ok (run_unit (u := .day) hc)
    (refuses_parameterOr _ (skip_rest hc) fun b c₁ hc₁ hb => ?_)
  have hf : r.first = .day := by simpa [DayTime.hasDay] using hday
  refine fails_fromUnit .day rfl hf hr hc₁ (fun hdays => ?_) hb
  have hnew := (NumberedForm.new_atom (f := .days r hday)).trans (if_pos hdays)
  exact absurd (hnew.symm.trans hb) (by simp)

/-- A number of fractions only. -/
theorem refuses_fraction (hsecond : r.hasFraction = true) (hr : EndsBase rest)
    (hc : c.rest = .keyword r.first.keyword ::
      (endTokens r ++ (parameterTokens (some d) ++ rest))) :
    let literal := c.passed + (endTokens r).length + 2
    Refuses (interval start) c d literal literal
      (.dayTime r Parameter.dayPrecision.omitted) := by
  intro literal
  have hc₁ := skip_rest hc
  have behind : ∀ single : DayTime, single.first = single.last → r.first = single.first →
      Refuses (fromUnit start single ⟨Parameter.dayPrecision.omitted, start⟩) c.skip d
        literal literal (.dayTime r Parameter.dayPrecision.omitted) := by
    intro single hs hf
    have hliteral : c.skip.passed + (endTokens r).length + 1 = literal := by
      simp only [Cursor.skip, literal]
      omega
    have h : Refuses (fromUnit start single ⟨Parameter.dayPrecision.omitted, start⟩) _ _ _ _ _ :=
      refuses_fromUnit single hs hf hsecond hr hc₁
    simpa only [hliteral, if_pos (Parameter.inRange_omitted _)] using h
  refine .of_ok (run_unit hc) ?_
  cases hf : r.first with
  | year | month => cases r <;> cases hf
  | day =>
    refine .of_ok (run_parameterOr_omitted _ hc₁ ?_) (behind .day rfl hf)
    obtain rfl : r = .dayToSecond := by
      revert hf hsecond
      cases r <;> decide
    simp [endTokens, DayTime.first, DayTime.last]
  | hour => exact behind .hour rfl hf
  | minute => exact behind .minute rfl hf
  | second => exact behind .second rfl hf

theorem refuses_daysAndFraction {d₁ d₂ : String} (hr : EndsBase rest)
    (hc : c.rest = .keyword .day :: (parameterTokens (some d₁) ++
      (endTokens .dayToSecond ++ (parameterTokens (some d₂) ++ rest)))) :
    (largestInteger < value d₁ →
        Fails (interval start) c (.problem (.token (c.passed + 2)) .invalidInteger)) ∧
      (value d₁ ≤ largestInteger →
        Refuses (interval start) c d₂ (c.passed + 7)
          (if Parameter.dayPrecision.InRange (value d₁) then c.passed + 7 else c.passed + 2)
          (.dayTime .dayToSecond (value d₁))) := by
  have hc₁ := skip_rest hc
  refine ⟨fun h₁ => .of_ok (run_unit (u := .day) hc) ((fails_parameterOr _ hc₁ h₁).bind _),
    fun h₁ => .of_ok (run_unit (u := .day) hc) (.of_ok (run_parameterOr _ hc₁ h₁) ?_)⟩
  have hc₂ : c.skip.skip.skip.skip.rest =
      endTokens .dayToSecond ++ (parameterTokens (some d₂) ++ rest) :=
    skip_rest (skip_rest (skip_rest hc₁))
  exact refuses_fromUnit (r := .dayToSecond) .day rfl rfl rfl hr hc₂

end Reading

/-! ## Parsing -/

/-- The answer to a number that is too large, at this offset. -/
def tooLarge (s : String) (offset : Nat) : Except Failure DataType :=
  .error (.parse offset .invalidInteger "Invalid integer value." s none)

/-- The answer with a type that is made, or with what is wrong about it, at this offset. -/
def verdict (s : String) (offset : Nat) (made : Except BadParameter DataType) :
    Except Failure DataType :=
  made.mapError fun b => .parse offset .invalidParameter b.message s none

section

variable {context : Context} {s d : String} {k : Keyword} {rest : List Token} {n blamed : Nat}
  {l m : Lexeme} {atom : Nat → Atom}
  (hlen : s.utf8ByteSize ≤ context.limits.maxInputLength)
  (hdepth : 1 ≤ context.limits.maxNestingDepth)
  (htokens : tokensOf s = .keyword k :: rest)
include hlen hdepth htokens

theorem parse_of_fails_at {p : Problem} (hl : (tokenize s)[n]? = some l)
    (h : ∀ (inner : Reading DataType) (c : Cursor), c.rest = rest → c.passed = 1 →
      Reading.Fails (Reading.afterKeyword context.loader inner 0 k) c (.problem (.token n) p)) :
    parse context s = .error (.parse l.start p.kind p.detail s p.cause?) := by
  obtain ⟨levels, hlevels⟩ := Nat.exists_eq_add_of_le' hdepth
  rw [parse_of_fails hlen hlevels htokens fun c hc hp => h _ c hc hp, Parser.failure,
    Parser.offset_token hl]
  rfl

/-- A number that is refused behind the first keyword is refused by the parser. -/
theorem parse_of_refuses (hl : (tokenize s)[n]? = some l) (hm : (tokenize s)[blamed]? = some m)
    (h : ∀ (inner : Reading DataType) (c : Cursor), c.rest = rest → c.passed = 1 →
      Reading.Refuses (Reading.afterKeyword context.loader inner 0 k) c d n blamed atom) :
    (largestInteger < value d → parse context s = tooLarge s l.start) ∧
      (value d ≤ largestInteger → ∀ b, DataType.new (.atom (atom (value d))) = .error b →
        parse context s = verdict s m.start (.error b)) :=
  ⟨fun hd => parse_of_fails_at hlen hdepth htokens hl fun inner c hc hp =>
      (h inner c hc hp).large hd,
    fun hd b hb => parse_of_fails_at hlen hdepth htokens hm fun inner c hc hp =>
      (h inner c hc hp).bad hd b hb⟩

end

namespace NumberedForm

variable {loader : Loader} {f : NumberedForm} {d : String}

/-- The number of the number's token. -/
def literal : NumberedForm → Nat
  | sized _ | decimal _ | time _ | timestamp _ | localZonedTimestamp => 2
  | years _ | days .. => 3
  | fraction range _ => (endTokens range).length + 3

theorem getElem?_literal (d : String) : (f.phrase d).tokens[f.literal]? = some (.integer d) := by
  cases f with
  | sized | decimal | time | timestamp | localZonedTimestamp | years => rfl
  | days range h => simp [phrase, AtomPhrase.tokens, literal, precisionTokens, h, parameterTokens]
  | fraction range h =>
    simp [phrase, AtomPhrase.tokens, literal, precisionTokens, h, parameterTokens]

/-- The keyword that the form starts with. -/
def keyword : NumberedForm → Keyword
  | sized s => s.keyword
  | decimal w => w.keyword
  | time _ => .time
  | timestamp _ => .timestamp
  | localZonedTimestamp => .timestampLtz
  | years _ | days .. | fraction .. => .interval

theorem tokens_phrase (f : NumberedForm) (d : String) :
    (f.phrase d).tokens = .keyword f.keyword :: (f.phrase d).tokens.tail := by
  cases f <;> rfl

/-- Behind its keyword, the form is refused for its number, at its number. -/
theorem refuses (inner : Reading DataType) {c : Cursor} (hc : c.rest = (f.phrase d).tokens.tail)
    (hp : c.passed = 1) :
    Reading.Refuses (Reading.afterKeyword loader inner 0 f.keyword) c d f.literal f.literal
      (f.atom ·) := by
  have hnil : ∀ ts : List Token, ts = ts ++ [] := fun ts => (List.append_nil ts).symm
  cases f with
  | sized s =>
    have h : Reading.Refuses (Reading.sized 0 s) c d _ _ _ :=
      Reading.refuses_sized (hc.trans (hnil _))
    rw [hp] at h
    cases s <;> exact h
  | decimal w =>
    have h : Reading.Refuses (Reading.decimal 0) c d _ _ _ :=
      Reading.refuses_decimal (hc.trans (hnil _))
    rw [hp] at h
    cases w <;> exact h
  | time without =>
    have h : Reading.Refuses (Reading.time 0) c d _ _ _ :=
      Reading.refuses_time endsBase_nil (hc.trans ((hnil _).trans (List.append_assoc _ _ _)))
    rwa [hp] at h
  | timestamp z =>
    have h : Reading.Refuses (Reading.timestamp 0) c d _ _ _ :=
      Reading.refuses_timestamp endsBase_nil (hc.trans ((hnil _).trans (List.append_assoc _ _ _)))
    rwa [hp] at h
  | localZonedTimestamp =>
    have h : Reading.Refuses (Reading.localZonedTimestamp 0) c d _ _ _ :=
      Reading.refuses_localZonedTimestamp (hc.trans (hnil _))
    rwa [hp] at h
  | years toMonth =>
    have h : Reading.Refuses (Reading.interval 0) c d _ _ _ :=
      Reading.refuses_years (b := toMonth) endsBase_nil
        (hc.trans (by simp [phrase, AtomPhrase.tokens]))
    rwa [hp] at h
  | days range hday =>
    have hf : range.first = .day := by simpa [DayTime.hasDay] using hday
    have h : Reading.Refuses (Reading.interval 0) c d _ _ _ :=
      Reading.refuses_days hday endsBase_nil
        (hc.trans (by simp [phrase, AtomPhrase.tokens, precisionTokens, parameterTokens, hday, hf,
          TimeUnit.keyword]))
    rwa [hp] at h
  | fraction range hsecond =>
    have h : Reading.Refuses (Reading.interval 0) c d _ _ _ :=
      Reading.refuses_fraction hsecond endsBase_nil
        (hc.trans (by simp [phrase, AtomPhrase.tokens, precisionTokens, parameterTokens, hsecond]))
    have hliteral : 1 + (endTokens range).length + 2 = (endTokens range).length + 3 := by omega
    rwa [hp, hliteral] at h

theorem meaning?_phrase (f : NumberedForm) (d : String) (loader : Loader) :
    (f.phrase d).meaning? loader = (number? d).bind fun n => make? (.atom (f.atom n)) := by
  cases f with
  | sized | time | timestamp | localZonedTimestamp | years => rfl
  | decimal => rfl
  | days range h => simp [phrase, AtomPhrase.meaning?, precision?, parameter?, h, atom]
  | fraction range h => simp [phrase, AtomPhrase.meaning?, precision?, parameter?, h, atom]

end NumberedForm

/-- How a description with one number is parsed: `d`, which stands at `l`. -/
structure ReadsNumber (context : Context) (s : String) (f : NumberedForm) (d : String)
    (l : Lexeme) : Prop where
  token : l.token = some (.integer d)
  good : f.parameter.InRange (value d) →
    DataType.new (.atom (f.atom (value d))) = .ok { shape := .atom (f.atom (value d)) } ∧
      parse context s = .ok { shape := .atom (f.atom (value d)) }
  large : largestInteger < value d → parse context s = tooLarge s l.start
  bad : ¬f.parameter.InRange (value d) → value d ≤ largestInteger →
    ∃ b, DataType.new (.atom (f.atom (value d))) = .error b ∧
      parse context s = verdict s l.start (.error b)

/-- How a description of the atom `a` with two numbers is parsed: `d₁` and `d₂`, which stand at `l₁`
and `l₂`. What is wrong with the atom is blamed on one of them. -/
structure ReadsNumbers (context : Context) (s d₁ d₂ : String) (l₁ l₂ blamed : Lexeme)
    (a : Atom) : Prop where
  token₁ : l₁.token = some (.integer d₁)
  token₂ : l₂.token = some (.integer d₂)
  large₁ : largestInteger < value d₁ → parse context s = tooLarge s l₁.start
  large₂ : value d₁ ≤ largestInteger → largestInteger < value d₂ →
    parse context s = tooLarge s l₂.start
  made : value d₁ ≤ largestInteger → value d₂ ≤ largestInteger →
    parse context s = verdict s blamed.start (DataType.new (.atom a))

section

variable {context : Context} {s : String}
  (hlen : s.utf8ByteSize ≤ context.limits.maxInputLength)
  (hdepth : 1 ≤ context.limits.maxNestingDepth)
include hlen hdepth

theorem readsNumber {f : NumberedForm} {d : String} {l : Lexeme}
    (htokens : tokensOf s = (f.phrase d).tokens) (hl : (tokenize s)[f.literal]? = some l) :
    ReadsNumber context s f d l := by
  obtain ⟨hlarge, hbad⟩ := parse_of_refuses hlen hdepth (htokens.trans (f.tokens_phrase d)) hl hl
    fun inner c hc hp => f.refuses inner hc hp
  refine ⟨?_, fun hin => ?_, hlarge, fun hout hle => ?_⟩
  · rw [token_of_getElem?_tokenize hl, htokens, f.getElem?_literal]
  · have hnew := (f.new_atom (n := value d)).trans (if_pos hin)
    refine ⟨hnew, parse_of_meaning? hlen hdepth htokens.symm ?_⟩
    rw [f.meaning?_phrase, number?_of_le hin.le_largest, Option.bind_some, make?, hnew]
    rfl
  · have hnew := (f.new_atom (n := value d)).trans (if_neg hout)
    exact ⟨_, hnew, hbad hle _ hnew⟩

/-- Two numbers of which the second one is refused as `Refuses` says, and the first one if it is too
large. -/
theorem readsNumbers {a : AtomPhrase} {k : Keyword} {rest : List Token} {d₁ d₂ : String}
    {n₁ n₂ blamed : Nat} {l₁ l₂ m : Lexeme} {atom : Nat → Nat → Atom}
    (ha : a.tokens = .keyword k :: rest) (htokens : tokensOf s = a.tokens)
    (ht₁ : a.tokens[n₁]? = some (.integer d₁)) (ht₂ : a.tokens[n₂]? = some (.integer d₂))
    (hl₁ : (tokenize s)[n₁]? = some l₁) (hl₂ : (tokenize s)[n₂]? = some l₂)
    (hm : (tokenize s)[blamed]? = some m)
    (hmeaning : a.meaning? context.loader = (number? d₁).bind fun v₁ => (number? d₂).bind fun v₂ =>
      make? (.atom (atom v₁ v₂)))
    (hrefuses : ∀ (inner : Reading DataType) (c : Cursor), c.rest = rest → c.passed = 1 →
      (largestInteger < value d₁ → Reading.Fails (Reading.afterKeyword context.loader inner 0 k) c
        (.problem (.token n₁) .invalidInteger)) ∧
      (value d₁ ≤ largestInteger → Reading.Refuses
        (Reading.afterKeyword context.loader inner 0 k) c d₂ n₂ blamed (atom (value d₁)))) :
    ReadsNumbers context s d₁ d₂ l₁ l₂ m (atom (value d₁) (value d₂)) := by
  have hk := htokens.trans ha
  refine ⟨?_, ?_, fun h₁ => ?_, fun h₁ h₂ => ?_, fun h₁ h₂ => ?_⟩
  · rw [token_of_getElem?_tokenize hl₁, htokens, ht₁]
  · rw [token_of_getElem?_tokenize hl₂, htokens, ht₂]
  · exact parse_of_fails_at hlen hdepth hk hl₁ fun inner c hc hp => (hrefuses inner c hc hp).1 h₁
  · exact (parse_of_refuses hlen hdepth hk hl₂ hm fun inner c hc hp =>
      (hrefuses inner c hc hp).2 h₁).1 h₂
  · rcases hnew : DataType.new (.atom (atom (value d₁) (value d₂))) with b | t
    · exact (parse_of_refuses hlen hdepth hk hl₂ hm fun inner c hc hp =>
        (hrefuses inner c hc hp).2 h₁).2 h₂ b hnew
    · refine parse_of_meaning? hlen hdepth htokens.symm ?_
      rw [hmeaning, number?_of_le h₁, number?_of_le h₂, Option.bind_some, Option.bind_some, make?,
        hnew]
      rfl

end

/-- Numbers are read exactly, whatever the layout of the text, and whatever is wrong with one is
said of it where it stands. A number that is too large is refused before one behind it, and before
what is wrong with the type. A bad decimal type is blamed on its precision, and a bad interval on
the days, unless these are in range. All runs of digits are such numbers. -/
theorem parse_numbers (context : Context) (s : String)
    (hlen : s.utf8ByteSize ≤ context.limits.maxInputLength)
    (hdepth : 1 ≤ context.limits.maxNestingDepth) :
    (∀ (f : NumberedForm) (d : String) (l : Lexeme), tokensOf s = (f.phrase d).tokens →
      (tokenize s)[f.literal]? = some l → ReadsNumber context s f d l) ∧
    (∀ (w : DecimalWord) (d₁ d₂ : String) (l₁ l₂ : Lexeme),
      tokensOf s = (AtomPhrase.decimalOf w d₁ (some d₂)).tokens →
      (tokenize s)[2]? = some l₁ → (tokenize s)[4]? = some l₂ →
      ReadsNumbers context s d₁ d₂ l₁ l₂ l₁ (.decimal (value d₁) (value d₂))) ∧
    (∀ (d₁ d₂ : String) (l₁ l₂ : Lexeme),
      tokensOf s = (AtomPhrase.dayTime .dayToSecond (some d₁) (some d₂)).tokens →
      (tokenize s)[3]? = some l₁ → (tokenize s)[8]? = some l₂ →
      ReadsNumbers context s d₁ d₂ l₁ l₂
        (if Parameter.dayPrecision.InRange (value d₁) then l₂ else l₁)
        (.dayTime .dayToSecond (value d₁) (value d₂))) ∧
    ∀ (ds : List String) (a : AtomPhrase), WithNumbers ds a →
      (∀ d ∈ ds, d.toList ≠ [] ∧ ∀ c ∈ d.toList, c.isDigit) →
      tokensOf (Token.layout a.tokens) = a.tokens := by
  refine ⟨fun f d l htokens hl => readsNumber hlen hdepth htokens hl,
    fun w d₁ d₂ l₁ l₂ htokens hl₁ hl₂ => ?_, fun d₁ d₂ l₁ l₂ htokens hl₁ hl₂ => ?_,
    fun ds a ha hd => ha.tokensOf_layout hd⟩
  · refine readsNumbers hlen hdepth rfl htokens rfl rfl hl₁ hl₂ hl₁ rfl fun inner c hc hp => ?_
    have h : (_ → Reading.Fails (Reading.decimal 0) c _) ∧
        (_ → Reading.Refuses (Reading.decimal 0) c d₂ _ _ _) := Reading.refuses_scale hc
    rw [hp] at h
    cases w <;> exact h
  · have hblamed : (tokenize s)[if Parameter.dayPrecision.InRange (value d₁) then 8 else 3]? =
        some (if Parameter.dayPrecision.InRange (value d₁) then l₂ else l₁) := by
      split_ifs <;> assumption
    refine readsNumbers hlen hdepth rfl htokens rfl rfl hl₁ hl₂ hblamed rfl fun inner c hc hp => ?_
    have h : (_ → Reading.Fails (Reading.interval 0) c _) ∧
        (_ → Reading.Refuses (Reading.interval 0) c d₂ _ _ _) :=
      Reading.refuses_daysAndFraction endsBase_nil (hc.trans rfl)
    rwa [hp] at h

/-- Leading zeros do not matter, and days in range leave the blame to the fractions. -/
theorem parse_numbers_interval :
    parse {} "INTERVAL DAY (0006) TO SECOND(10)" =
        .error (.parse 30 .invalidParameter
          "Fractional precision of day-time intervals must be between 0 and 9 (both inclusive)."
          "INTERVAL DAY (0006) TO SECOND(10)" none) ∧
      parse {} "Char(02147483648)" =
        .error (.parse 5 .invalidInteger "Invalid integer value." "Char(02147483648)" none) := by
  have hinterval := (parse_numbers {} "INTERVAL DAY (0006) TO SECOND(10)" (by decide +kernel)
    (by decide)).2.2.1 "0006" "10" ⟨some (.integer "0006"), 14, 18⟩ ⟨some (.integer "10"), 30, 32⟩
    (by decide +kernel) (by decide +kernel) (by decide +kernel)
  have hchar := (parse_numbers {} "Char(02147483648)" (by decide +kernel) (by decide)).1
    (.sized .char) "02147483648" ⟨some (.integer "02147483648"), 5, 16⟩ (by decide +kernel)
    (by decide +kernel)
  refine ⟨?_, hchar.large (by decide +kernel)⟩
  rw [hinterval.made (by decide +kernel) (by decide +kernel)]
  decide +kernel

end SqlTypes
