import SqlTypes.Proofs.AtomReading

/-!
# Reading intervals

The word `TO` may not follow any complete range, so that a reading of an interval takes as much of a
range as there is, and no range is the beginning of another description.
-/

namespace SqlTypes

open Grammar Cursor

namespace Reading

variable {c c' : Cursor} {rest : List Token} {t : DataType} {start : Nat}

theorem unit_passes {u : TimeUnit} (h : unit.run c = .ok u c') :
    c.Passes [.keyword u.keyword] 0 c' := by
  simp only [unit, EStateM.run_bind, run_peek] at h
  split at h
  · rename_i u' hu
    obtain ⟨tok, ht, hu⟩ := Option.bind_eq_some_iff.1 hu
    rw [Token.unit?_eq_some_iff] at hu
    subst hu
    rw [run_bind_of_ok (run_advance ht)] at h
    cases h
    exact .single ht
  · exact absurd h run_refuse_ne_ok

theorem run_unit {u : TimeUnit} (hc : c.rest = .keyword u.keyword :: rest) :
    unit.run c = .ok u c.skip := by
  have ht := head?_of_rest hc
  have hu : c.rest.head?.bind Token.unit? = some u := by
    rw [ht, Option.bind_some]
    exact Token.unit?_eq_some_iff.2 rfl
  simp only [unit, EStateM.run_bind, run_peek, hu, run_advance ht]
  rfl

theorem endOfRange_passes {u : Unit} (h : endOfRange.run c = .ok u c') : c = c' := by
  simp only [endOfRange, EStateM.run_bind, run_peek] at h
  split at h
  · exact absurd h run_refuse_ne_ok
  · exact (run_pure_ok.1 h).2

theorem run_endOfRange (hc : c.rest = rest) (hr : EndsBase rest) :
    endOfRange.run c = .ok () c := by
  simp only [endOfRange, EStateM.run_bind, run_peek, hc]
  rw [if_neg (hr.head?_ne rfl)]
  rfl

theorem toMonth_passes {r : YearMonth} (h : toMonth.run c = .ok r c') :
    r = .yearToMonth ∧ c.Passes [.keyword .month] 0 c' := by
  obtain ⟨b, c₁, ha, h⟩ := run_bind_ok.1 h
  cases b with
  | true =>
    obtain ⟨rfl, rfl⟩ := run_pure_ok.1 h
    exact ⟨rfl, accept_passes ha⟩
  | false => exact absurd h run_refuse_ne_ok

theorem yearRange_passes {r : YearMonth} (h : yearRange.run c = .ok r c') :
    ∃ b : Bool, r = (if b then .yearToMonth else .year) ∧ c.Passes (monthTokens b) 0 c' := by
  obtain ⟨b, c₁, ha, h⟩ := run_bind_ok.1 h
  cases b with
  | true =>
    obtain ⟨rfl, hm⟩ := toMonth_passes h
    exact ⟨true, rfl, (accept_passes ha).trans hm⟩
  | false =>
    obtain ⟨rfl, rfl⟩ := run_pure_ok.1 h
    exact ⟨false, rfl, accept_passes ha⟩

theorem yearRange_outcome {b : Bool} (hc : c.rest = monthTokens b ++ rest) (hr : EndsBase rest) :
    Outcome c (monthTokens b) 0 (· = if b then .yearToMonth else .year) (yearRange.run c) := by
  rw [yearRange, acceptKeyword]
  cases b with
  | true =>
    have hc₁ := skip_rest hc
    rw [run_bind_of_ok (run_accept_self hc)]
    simp only [if_true]
    rw [toMonth, acceptKeyword, run_bind_of_ok (run_accept_self hc₁)]
    exact .of_skip hc ⟨rfl, .single (head?_of_rest hc₁)⟩
  | false =>
    rw [run_bind_of_ok (run_accept_other hc (hr.head?_ne rfl))]
    exact ⟨rfl, .refl c⟩

/-- An interval behind its keyword and its first unit. -/
theorem fromYear_passes (loader : Loader) (h : (fromYear start).run c = .ok t c') :
    ∃ d b, (AtomPhrase.years d b).meaning? loader = some t ∧
      c.Passes (parameterTokens d ++ monthTokens b) 0 c' := by
  obtain ⟨n, c₁, hn, h⟩ := run_bind_ok.1 h
  obtain ⟨r, c₂, hr, h⟩ := run_bind_ok.1 h
  obtain ⟨_, c₃, he, h⟩ := run_bind_ok.1 h
  obtain ⟨ht, rfl⟩ := run_make_ok.1 h
  obtain rfl := endOfRange_passes he
  obtain ⟨d, hd, hp⟩ := parameterOr_passes hn
  obtain ⟨b, rfl, hb⟩ := yearRange_passes hr
  exact ⟨d, b, by simpa [AtomPhrase.meaning?, hd] using ht, hp.trans hb⟩

theorem fromYear_outcome (loader : Loader) {d : Option String} {b : Bool}
    (hc : c.rest = parameterTokens d ++ monthTokens b ++ rest) (hr : EndsBase rest) :
    Outcome c (parameterTokens d ++ monthTokens b) 0
      ((AtomPhrase.years d b).meaning? loader = some ·) ((fromYear start).run c) := by
  rw [List.append_assoc] at hc
  refine (parameterOr_outcome _ hc ?_).bind
    (fun _ ht => exists_numeral_of_bind_eq_some ht) fun n c₁ hn hp => ?_
  · cases b with
    | true => simp [monthTokens]
    | false => exact hr.head?_ne rfl
  have hc₁ := hp.rest_eq hc
  refine (yearRange_outcome hc₁ hr).map (fun _ _ => ⟨_, rfl⟩) fun r c₂ hr' hp => ?_
  rw [run_bind_of_ok (run_endOfRange (hp.rest_eq hc₁) hr)]
  refine (make_outcome _ _).mono fun t => ?_
  simp [AtomPhrase.meaning?, hn, hr']

theorem fromMonth_passes (loader : Loader) (h : (fromMonth start).run c = .ok t c') :
    AtomPhrase.months.meaning? loader = some t ∧ c = c' := by
  obtain ⟨_, c₁, he, h⟩ := run_bind_ok.1 h
  obtain ⟨ht, rfl⟩ := run_make_ok.1 h
  exact ⟨ht, endOfRange_passes he⟩

theorem fromMonth_outcome (loader : Loader) (hc : c.rest = rest) (hr : EndsBase rest) :
    Outcome c [] 0 (AtomPhrase.months.meaning? loader = some ·) ((fromMonth start).run c) := by
  rw [fromMonth, run_bind_of_ok (run_endOfRange hc hr)]
  exact make_outcome _ _

theorem rangeFrom_passes {first : TimeUnit} {r : DayTime} (h : (rangeFrom first).run c = .ok r c') :
    r.first = first ∧ c.Passes [.keyword r.last.keyword] 0 c' ∧ first ≠ r.last := by
  simp only [rangeFrom, EStateM.run_bind, run_peek] at h
  split at h
  · rename_i r' hr
    obtain ⟨last, hl, hr⟩ := Option.bind_eq_some_iff.1 hr
    obtain ⟨tok, ht, hl⟩ := Option.bind_eq_some_iff.1 hl
    obtain ⟨rfl, rfl, hne⟩ := DayTime.between?_eq_some_iff.1 hr
    rw [Token.unit?_eq_some_iff] at hl
    subst hl
    rw [run_bind_of_ok (run_advance ht)] at h
    cases h
    exact ⟨rfl, .single ht, hne⟩
  · exact absurd h run_refuse_ne_ok

theorem run_rangeFrom {r : DayTime} (hne : r.first ≠ r.last)
    (hc : c.rest = .keyword r.last.keyword :: rest) :
    (rangeFrom r.first).run c = .ok r c.skip := by
  have ht := head?_of_rest hc
  have hr : (c.rest.head?.bind Token.unit?).bind (DayTime.between? r.first) = some r := by
    rw [ht, Option.bind_some, Token.unit?_eq_some_iff.2 rfl, Option.bind_some]
    exact DayTime.between?_eq_some_iff.2 ⟨rfl, rfl, hne⟩
  simp only [rangeFrom, EStateM.run_bind, run_peek, hr, run_advance ht]
  rfl

/-- A range of one unit is all there is to that unit. -/
theorem eq_of_single {r single : DayTime} (hs : single.first = single.last)
    (hf : r.first = single.first) (hr : r.first = r.last) : r = single := by
  revert hs hf hr
  cases r <;> cases single <;> decide

theorem dayTimeRange_passes {single r : DayTime} (hs : single.first = single.last)
    (h : (dayTimeRange single).run c = .ok r c') :
    r.first = single.first ∧ c.Passes (endTokens r) 0 c' := by
  obtain ⟨b, c₁, ha, h⟩ := run_bind_ok.1 h
  cases b with
  | true =>
    obtain ⟨hf, hp, hne⟩ := rangeFrom_passes h
    rw [endTokens, if_neg (by rwa [hf])]
    exact ⟨hf, (accept_passes ha).trans hp⟩
  | false =>
    obtain ⟨rfl, rfl⟩ := run_pure_ok.1 h
    rw [endTokens, if_pos hs]
    exact ⟨rfl, accept_passes ha⟩

theorem dayTimeRange_outcome {single r : DayTime} (hs : single.first = single.last)
    (hf : r.first = single.first) (hc : c.rest = endTokens r ++ rest)
    (hr : rest.head? ≠ some (.keyword .to)) :
    Outcome c (endTokens r) 0 (· = r) ((dayTimeRange single).run c) := by
  rw [dayTimeRange, acceptKeyword]
  unfold endTokens at hc ⊢
  split_ifs at hc ⊢ with he
  · obtain rfl := eq_of_single hs hf he
    rw [run_bind_of_ok (run_accept_other hc hr)]
    exact ⟨rfl, .refl c⟩
  · have hc₁ := skip_rest hc
    rw [run_bind_of_ok (run_accept_self hc)]
    simp only [if_true]
    rw [← hf, run_rangeFrom he hc₁]
    exact .of_skip hc ⟨rfl, .single (head?_of_rest hc₁)⟩

theorem fraction_passes {r : DayTime} {n : Numeral} (h : (fraction start r).run c = .ok n c') :
    ∃ d, precision? Parameter.fractionPrecision.omitted r.hasFraction d = some n.value ∧
      c.Passes (precisionTokens r.hasFraction d) 0 c' := by
  unfold fraction at h
  unfold precision? precisionTokens
  split_ifs at h ⊢ with hf
  · exact parameterOr_passes h
  · obtain ⟨rfl, rfl⟩ := run_pure_ok.1 h
    exact ⟨none, rfl, .refl c⟩

theorem fraction_outcome {r : DayTime} {d : Option String}
    (hc : c.rest = precisionTokens r.hasFraction d ++ rest) (hr : EndsBase rest) :
    Outcome c (precisionTokens r.hasFraction d) 0
      (fun n => precision? Parameter.fractionPrecision.omitted r.hasFraction d = some n.value)
      ((fraction start r).run c) := by
  unfold fraction
  unfold precision? precisionTokens at *
  split_ifs at hc ⊢ with hf
  · exact parameterOr_outcome _ hc (hr.head?_ne rfl)
  · exact ⟨rfl, .refl c⟩

theorem precisionTokens_head?_ne (used : Bool) (d : Option String) (hr : EndsBase rest) :
    (precisionTokens used d ++ rest).head? ≠ some (.keyword .to) := by
  have hr := hr.head?_ne (t := .keyword .to) rfl
  unfold precisionTokens parameterTokens
  cases used <;> cases d <;> simp [hr]

theorem fromUnit_passes (single : DayTime) {days : Numeral} (hs : single.first = single.last)
    (h : (fromUnit start single days).run c = .ok t c') :
    ∃ r d n, r.first = single.first ∧
      precision? Parameter.fractionPrecision.omitted r.hasFraction d = some n ∧
      make? (.atom (.dayTime r days.value n)) = some t ∧
      c.Passes (endTokens r ++ precisionTokens r.hasFraction d) 0 c' := by
  obtain ⟨r, c₁, hr, h⟩ := run_bind_ok.1 h
  obtain ⟨n, c₂, hn, h⟩ := run_bind_ok.1 h
  obtain ⟨_, c₃, he, h⟩ := run_bind_ok.1 h
  obtain ⟨ht, rfl⟩ := run_make_ok.1 h
  obtain rfl := endOfRange_passes he
  obtain ⟨hf, hp⟩ := dayTimeRange_passes hs hr
  obtain ⟨d, hd, hdp⟩ := fraction_passes hn
  exact ⟨r, d, n.value, hf, hd, ht, hp.trans hdp⟩

theorem fromUnit_outcome (single : DayTime) {r : DayTime} {days : Numeral} {d : Option String}
    (hs : single.first = single.last) (hf : r.first = single.first)
    (hc : c.rest = endTokens r ++ precisionTokens r.hasFraction d ++ rest) (hr : EndsBase rest) :
    Outcome c (endTokens r ++ precisionTokens r.hasFraction d) 0
      (fun t => (precision? Parameter.fractionPrecision.omitted r.hasFraction d).bind
        (fun n => make? (.atom (.dayTime r days.value n))) = some t)
      ((fromUnit start single days).run c) := by
  rw [List.append_assoc] at hc
  have hto := precisionTokens_head?_ne r.hasFraction d hr
  refine (dayTimeRange_outcome hs hf hc hto).bind (fun _ _ => ⟨_, rfl⟩) fun r' c₁ hr' hp => ?_
  subst hr'
  have hc₁ := hp.rest_eq hc
  refine (fraction_outcome hc₁ hr).map
    (fun _ ht => exists_numeral_of_bind_eq_some ht) fun n c₂ hn hp => ?_
  rw [run_bind_of_ok (run_endOfRange (hp.rest_eq hc₁) hr)]
  refine (make_outcome _ _).mono fun t => ?_
  rw [hn, Option.bind_some]

theorem hasDay_of_first {r s : DayTime} (h : r.first = s.first) : r.hasDay = s.hasDay := by
  simp only [DayTime.hasDay, h]

/-- A range from the single unit `single` on, `days` being read from `d`, if at all. -/
theorem dayTime_passes (loader : Loader) (single : DayTime) {days : Numeral} {d : Option String}
    {c₁ c₂ : Cursor} (hs : single.first = single.last)
    (hu : c.Passes [.keyword single.first.keyword] 0 c₁)
    (hd : precision? Parameter.dayPrecision.omitted single.hasDay d = some days.value)
    (hp : c₁.Passes (precisionTokens single.hasDay d) 0 c₂)
    (h : (fromUnit start single days).run c₂ = .ok t c') :
    BehindKeyword loader .interval c c' t := by
  obtain ⟨r, f, n, hf, hn, ht, hfp⟩ := fromUnit_passes single hs h
  have hday := hasDay_of_first hf
  refine ⟨.dayTime r d f, _, ?_, ?_, hu.trans (hp.trans hfp)⟩
  · simp [AtomPhrase.tokens, hf, hday]
  · simp [AtomPhrase.meaning?, hday, hd, hn, ht]

theorem dayTime_outcome (loader : Loader) (single : DayTime) {r : DayTime} {days : Numeral}
    {d f : Option String} (hs : single.first = single.last) (hf : r.first = single.first)
    (hd : precision? Parameter.dayPrecision.omitted r.hasDay d = some days.value)
    (hc : c.rest = endTokens r ++ precisionTokens r.hasFraction f ++ rest) (hr : EndsBase rest) :
    Outcome c (endTokens r ++ precisionTokens r.hasFraction f) 0
      ((AtomPhrase.dayTime r d f).meaning? loader = some ·)
      ((fromUnit start single days).run c) := by
  refine (fromUnit_outcome single hs hf hc hr).mono fun t => ?_
  rw [AtomPhrase.meaning?, hd]
  rfl

theorem interval_passes (loader : Loader) (h : (interval start).run c = .ok t c') :
    BehindKeyword loader .interval c c' t := by
  obtain ⟨u, c₁, hu, h⟩ := run_bind_ok.1 h
  have hu := unit_passes hu
  cases u with
  | year =>
    obtain ⟨d, b, ht, hp⟩ := fromYear_passes loader h
    exact ⟨.years d b, _, rfl, ht, hu.trans hp⟩
  | month =>
    obtain ⟨ht, rfl⟩ := fromMonth_passes loader h
    exact ⟨.months, _, rfl, ht, hu⟩
  | day =>
    obtain ⟨days, c₂, hd, h⟩ := run_bind_ok.1 h
    obtain ⟨d, hd, hp⟩ := parameterOr_passes hd
    exact dayTime_passes loader .day rfl hu hd hp h
  | hour => exact dayTime_passes (d := none) loader .hour rfl hu rfl (.refl c₁) h
  | minute => exact dayTime_passes (d := none) loader .minute rfl hu rfl (.refl c₁) h
  | second => exact dayTime_passes (d := none) loader .second rfl hu rfl (.refl c₁) h

theorem interval_years_outcome (loader : Loader) {d : Option String} {b : Bool}
    (hc : c.rest = .keyword .year :: (parameterTokens d ++ monthTokens b) ++ rest)
    (hr : EndsBase rest) :
    Outcome c (.keyword .year :: (parameterTokens d ++ monthTokens b)) 0
      ((AtomPhrase.years d b).meaning? loader = some ·) ((interval start).run c) := by
  rw [interval, run_bind_of_ok (run_unit (u := .year) hc)]
  exact .of_skip hc (fromYear_outcome loader (skip_rest hc) hr)

theorem interval_months_outcome (loader : Loader) (hc : c.rest = .keyword .month :: rest)
    (hr : EndsBase rest) :
    Outcome c [.keyword .month] 0 (AtomPhrase.months.meaning? loader = some ·)
      ((interval start).run c) := by
  rw [interval, run_bind_of_ok (run_unit (u := .month) hc)]
  exact .of_skip hc (fromMonth_outcome loader (skip_rest hc) hr)

theorem endTokens_head?_ne {r : DayTime} (f : Option String) (hf : r.first = .day)
    (hr : EndsBase rest) :
    (endTokens r ++ precisionTokens r.hasFraction f ++ rest).head? ≠ some (.symbol .openParen) := by
  have hr := hr.head?_ne (t := .symbol .openParen) rfl
  cases r <;> cases hf
  · simpa [endTokens, precisionTokens, DayTime.hasFraction, DayTime.first, DayTime.last] using hr
  all_goals simp [endTokens, DayTime.first, DayTime.last]

theorem interval_dayTime_outcome (loader : Loader) {r : DayTime} {d f : Option String}
    (hc : c.rest = .keyword r.first.keyword :: (precisionTokens r.hasDay d ++
      (endTokens r ++ precisionTokens r.hasFraction f)) ++ rest)
    (hr : EndsBase rest) :
    Outcome c (.keyword r.first.keyword :: (precisionTokens r.hasDay d ++
        (endTokens r ++ precisionTokens r.hasFraction f))) 0
      ((AtomPhrase.dayTime r d f).meaning? loader = some ·) ((interval start).run c) := by
  have hc₁ : c.skip.rest =
      precisionTokens r.hasDay d ++ (endTokens r ++ precisionTokens r.hasFraction f ++ rest) := by
    simpa using skip_rest hc
  rw [interval, run_bind_of_ok (run_unit hc)]
  refine .of_skip hc ?_
  have other : ∀ single : DayTime, single.first = single.last → r.first = single.first →
      single.hasDay = false →
      Outcome c.skip (precisionTokens r.hasDay d ++
          (endTokens r ++ precisionTokens r.hasFraction f)) 0
        ((AtomPhrase.dayTime r d f).meaning? loader = some ·)
        ((fromUnit start single ⟨Parameter.dayPrecision.omitted, start⟩).run c.skip) := by
    intro single hs hf hd
    have hday := (hasDay_of_first hf).trans hd
    rw [hday] at hc₁ ⊢
    exact dayTime_outcome loader single hs hf (by rw [hday]; rfl) hc₁ hr
  cases hf : r.first with
  | year | month => cases r <;> cases hf
  | day =>
    have hday : r.hasDay = true := hasDay_of_first (s := .day) hf
    rw [hday] at hc₁ ⊢
    refine (parameterOr_outcome _ hc₁ (endTokens_head?_ne f hf hr)).bind (fun t ht => ?_)
      fun days c₁ hd hp => ?_
    · obtain ⟨n, hn⟩ := exists_numeral_of_bind_eq_some ht
      exact ⟨n, by rwa [hday] at hn⟩
    · exact dayTime_outcome loader .day rfl hf (by rw [hday]; exact hd) (hp.rest_eq hc₁) hr
  | hour => exact other .hour rfl hf rfl
  | minute => exact other .minute rfl hf rfl
  | second => exact other .second rfl hf rfl

end Reading

end SqlTypes
