import SqlTypes.Proofs.Failures
import SqlTypes.Proofs.Lookahead

/-!
# Runs over tokens that begin with the same ones

No reading of a description looks further ahead than to the next token, so its runs over tokens that
begin with the same ones agree (`Reading.runOn_agree`). Where a description ends too early for one
run, the parameters that it leaves out are in range, and those that it still has are as good as they
are in the whole description.
-/

namespace SqlTypes

open Grammar Cursor

namespace Reading

variable {n n' start : Nat} {s s' : Shape DataType} {V : DataType → DataType → Prop}

theorem Agrees.make (n : Nat) (s : Shape DataType) : Agrees V (make n s) :=
  .orFailAt n _

theorem make_finishes (h : s.normalized.check = .ok ()) : Finishes (fun _ => True) (make n s) := by
  intro c hc
  rw [make, DataType.new_eq_ok_iff.2 ⟨h, rfl⟩]
  exact ⟨hc, trivial⟩

theorem make_endsWell (h : s'.normalized.check = .ok () → s.normalized.check = .ok ()) :
    EndsWell Any (make n s) (make n' s') := by
  intro c c' t c'' hc ht
  obtain ⟨ht, -⟩ := run_make_ok.1 ht
  exact make_finishes (h (make?_eq_some_iff.1 ht).1) hc

theorem parameterOr_finishes (o : Numeral) : Finishes (· = o) (parameterOr o) :=
  Finishes.acceptElse (.pure rfl)

theorem Agrees.parameterOr (o : Numeral) : Agrees (fun a _ => a = o) (parameterOr o) := by
  refine .acceptOr ?_ (.pure o) fun _ => .pure rfl
  refine .seq .integer fun n => ?_
  refine .seq (.expectSymbol _) fun _ => ?_
  exact .pure n

theorem check_sized_omitted (s : Sized) :
    (Shape.atom (τ := DataType) (.sized s (Parameter.length s).omitted)).normalized.check =
      .ok () :=
  Parameter.check_eq_ok_iff.2 (Parameter.length s).inRange_omitted

theorem check_temporal_omitted (t : Temporal) :
    (Shape.atom (τ := DataType) (.temporal t (Parameter.precision t).omitted)).normalized.check =
      .ok () :=
  Parameter.check_eq_ok_iff.2 (Parameter.precision t).inRange_omitted

/-- Where what stands behind the parameter is left out, it is `a`, and no worse than what stands
there otherwise. -/
theorem Agrees.withParameter {α : Type} {p : Parameter} {x : Reading α} {a : α}
    {atom : Nat → α → Atom} (hx : Agrees (fun a' _ => a' = a) x) (hend : Finishes (· = a) x)
    (hcheck : ∀ n b, (Shape.atom (τ := DataType) (atom n b)).normalized.check = .ok () →
      (Shape.atom (τ := DataType) (atom n a)).normalized.check = .ok ())
    (homitted : (Shape.atom (τ := DataType) (atom p.omitted a)).normalized.check = .ok ()) :
    Agrees Any (withParameter start p x atom) := by
  refine .bind (.parameterOr _) (fun n => ?_) ?_
  · refine .bind hx (fun b => .make _ _) ?_
    rintro _ b rfl
    exact make_endsWell (hcheck n.value b)
  · rintro _ n rfl
    refine Finishes.any (hend.bind ?_)
    rintro _ rfl
    exact make_finishes homitted

theorem Agrees.sized (s : Sized) : Agrees Any (sized start s) :=
  .withParameter (.pure ()) (.pure rfl) (fun _ _ h => h) (check_sized_omitted s)

theorem Agrees.scale : Agrees Any scale := by
  refine .acceptOr ?_ (.pure _) fun _ => .pure trivial
  refine .seq .integer fun n => ?_
  exact .pure n.value

theorem Agrees.decimal : Agrees Any (decimal start) := by
  refine .acceptOr ?_ (.make _ _) fun _ => make_finishes rfl
  refine .seq .integer fun precision => ?_
  refine .bind .scale (fun scale => ?_) fun _ _ _ => ?_
  · refine .seq (.expectSymbol _) fun _ => ?_
    exact .make _ _
  · exact (expectSymbol_finishes _).refused.any

theorem Agrees.timeZone {V : Unit → Unit → Prop} : Agrees V timeZone := by
  refine .seq (.expectKeyword _) fun _ => ?_
  exact .expectKeyword _

theorem timeZone_finishes {P : Unit → Prop} : Finishes P timeZone :=
  (expectKeyword_finishes _).refused

theorem withoutZone_finishes : Finishes (· = ()) withoutZone :=
  Finishes.acceptElse (.pure rfl)

theorem Agrees.withoutZone : Agrees (fun a _ => a = ()) withoutZone :=
  .acceptOr .timeZone (.pure ()) fun _ => .pure rfl

theorem Agrees.time : Agrees Any (time start) :=
  .withParameter .withoutZone withoutZone_finishes (fun _ _ h => h) (check_temporal_omitted _)

theorem withZone_finishes : Finishes (· = .timestamp) withZone :=
  Finishes.acceptElse (.pure rfl)

theorem Agrees.withZone : Agrees (fun a _ => a = .timestamp) withZone := by
  refine .acceptOr ?_ (.pure _) fun _ => .pure rfl
  refine .bind (.accept _) (fun isLocal => ?_) fun _ _ _ => ?_
  · refine .seq .timeZone fun _ => ?_
    exact .pure _
  · exact Finishes.endsWell fun _ => timeZone_finishes.refused

theorem zone_finishes : Finishes (· = .timestamp) zone :=
  withZone_finishes.acceptElse

theorem Agrees.zone : Agrees (fun a _ => a = .timestamp) zone := by
  refine .acceptOr ?_ .withZone fun _ => withZone_finishes
  refine .seq .timeZone fun _ => ?_
  exact .pure _

theorem Agrees.timestamp : Agrees Any (timestamp start) := by
  refine .withParameter .zone zone_finishes (fun n t h => ?_) (check_temporal_omitted .timestamp)
  -- the range of a precision is the same for all kinds of timestamps
  have hrange := (Parameter.check_eq_ok_iff (p := .precision t)).1 h
  exact Parameter.check_eq_ok_iff.2 hrange

theorem Agrees.localZonedTimestamp : Agrees Any (localZonedTimestamp start) :=
  .withParameter (.pure ()) (.pure rfl) (fun _ _ h => h) (check_temporal_omitted _)

theorem Agrees.unit {V : TimeUnit → TimeUnit → Prop} : Agrees V unit := by
  refine .look (fun t => ?_) (.refuse fun _ _ => nofun) fun _ => refuse_finishes
  split
  · exact .advance (.pure _)
  · exact .refuse fun _ _ => nofun

theorem Agrees.rangeFrom {V : DayTime → DayTime → Prop} (first : TimeUnit) :
    Agrees V (rangeFrom first) := by
  refine .look (fun t => ?_) (.refuse fun _ _ => nofun) fun _ => refuse_finishes
  split
  · exact .advance (.pure _)
  · exact .refuse fun _ _ => nofun

theorem endOfRange_finishes : Finishes (fun _ => True) endOfRange := by
  intro c hc
  rw [run_endOfRange hc nofun]
  exact ⟨hc, trivial⟩

theorem Agrees.endOfRange : Agrees Any endOfRange :=
  .peekElse (.refuse fun _ _ => nofun) (.pure ()) fun _ => .pure trivial

theorem Agrees.toMonth {V : YearMonth → YearMonth → Prop} : Agrees V toMonth :=
  .acceptOrRefuse fun _ _ => nofun

theorem yearRange_finishes : Finishes (· = .year) yearRange :=
  Finishes.acceptElse (.pure rfl)

theorem Agrees.yearRange : Agrees (fun a _ => a = .year) yearRange :=
  .acceptOr .toMonth (.pure _) fun _ => .pure rfl

theorem yearRange_hasYear {c c' : Cursor} {r : YearMonth} (h : yearRange.run c = .ok r c') :
    r.hasYear = true := by
  obtain ⟨b, rfl, -⟩ := yearRange_passes h
  cases b <;> rfl

theorem check_yearMonth_iff {range : YearMonth} {years : Nat} :
    (Shape.atom (τ := DataType) (.yearMonth range years)).normalized.check = .ok () ↔
      (range.hasYear = true → Parameter.yearPrecision.InRange years) := by
  refine Parameter.check_eq_ok_iff.trans ?_
  cases range <;> simp [YearMonth.hasYear, Parameter.inRange_omitted]

/-- The end of a range, and the making of the type. -/
theorem Agrees.ended (n : Nat) (s : Shape DataType) :
    Agrees Any (do Reading.endOfRange; Reading.make n s) := by
  refine .bind .endOfRange (fun _ => .make n s) fun _ _ _ => ?_
  exact make_endsWell id

theorem Agrees.fromYear : Agrees Any (fromYear start) := by
  have hrange := yearRange.having fun _ _ _ h => yearRange_hasYear h
  refine .bind (.parameterOr _) (fun years => ?_) ?_
  · refine .bind hrange (fun range => .ended _ _) ?_
    rintro _ range ⟨rfl, hyear⟩
    refine .bind endOfRange_finishes fun _ _ _ => make_endsWell fun h => ?_
    exact check_yearMonth_iff.2 fun _ => check_yearMonth_iff.1 h hyear
  · rintro _ years rfl
    refine (yearRange_finishes.bind ?_).any
    rintro _ rfl
    refine endOfRange_finishes.bind fun _ _ => ?_
    exact make_finishes rfl

theorem Agrees.fromMonth : Agrees Any (fromMonth start) :=
  .ended _ _

theorem dayTimeRange_finishes (single : DayTime) : Finishes (· = single) (dayTimeRange single) :=
  Finishes.acceptElse (.pure rfl)

theorem dayTimeRange_first {single range : DayTime} {c c' : Cursor}
    (h : (dayTimeRange single).run c = .ok range c') : range.first = single.first := by
  obtain ⟨b, c₁, -, h⟩ := run_bind_ok.1 h
  cases b with
  | true => exact (rangeFrom_passes h).1
  | false => exact (run_pure_ok.1 h).1 ▸ rfl

theorem Agrees.dayTimeRange (single : DayTime) :
    Agrees (fun a _ => a = single) (dayTimeRange single) :=
  .acceptOr (.rangeFrom _) (.pure _) fun _ => .pure rfl

theorem fraction_finishes (start : Nat) (range : DayTime) :
    Finishes (·.value = Parameter.fractionPrecision.omitted) (fraction start range) := by
  unfold fraction
  split_ifs
  · exact fun c hc => (parameterOr_finishes _ hc).mono fun n hn => hn ▸ rfl
  · exact .pure rfl

theorem Agrees.fraction (range : DayTime) :
    Agrees (fun a _ => a.value = Parameter.fractionPrecision.omitted) (fraction start range) := by
  unfold Reading.fraction
  split_ifs
  · exact (Agrees.parameterOr _).mono fun n _ hn => hn ▸ rfl
  · exact .pure _

theorem check_dayTime_iff {range : DayTime} {days fraction : Nat} :
    (Shape.atom (τ := DataType) (.dayTime range days fraction)).normalized.check = .ok () ↔
      (range.hasDay = true → Parameter.dayPrecision.InRange days) ∧
        (range.hasFraction = true → Parameter.fractionPrecision.InRange fraction) := by
  refine Parameter.check_bind_eq_ok_iff.trans (and_congr ?_ (Parameter.check_eq_ok_iff.trans ?_))
  · cases range.hasDay <;> simp [Parameter.inRange_omitted]
  · cases range.hasFraction <;> simp [Parameter.inRange_omitted]

/-- Without its fraction, a range is as good as any from the same unit on. -/
theorem check_dayTime_omitted {range range' : DayTime} {days fraction : Nat}
    (hf : range'.first = range.first)
    (h : (Shape.atom (τ := DataType) (.dayTime range' days fraction)).normalized.check = .ok ()) :
    (Shape.atom (τ := DataType) (.dayTime range days
      Parameter.fractionPrecision.omitted)).normalized.check = .ok () :=
  check_dayTime_iff.2 ⟨fun hd => (check_dayTime_iff.1 h).1 (hasDay_of_first hf ▸ hd),
    fun _ => Parameter.inRange_omitted _⟩

theorem Agrees.fromUnit (single : DayTime) (days : Numeral) :
    Agrees Any (fromUnit start single days) := by
  have hrange := (Agrees.dayTimeRange single).having fun _ _ _ h => dayTimeRange_first h
  refine .bind hrange (fun range => ?_) ?_
  · refine .bind (.fraction range) (fun _ => .ended _ _) ?_
    rintro ⟨_, origin⟩ fraction rfl
    refine .bind endOfRange_finishes fun _ _ _ => ?_
    exact make_endsWell (check_dayTime_omitted rfl)
  · rintro _ range ⟨rfl, hfirst⟩
    refine .bind (fraction_finishes _ _) ?_
    rintro ⟨_, origin⟩ fraction rfl
    refine .bind endOfRange_finishes fun _ _ _ => ?_
    exact make_endsWell (check_dayTime_omitted hfirst)

theorem fromUnit_finishes (single : DayTime) {days : Numeral}
    (hdays : Parameter.dayPrecision.InRange days.value) :
    Finishes (fun _ => True) (fromUnit start single days) := by
  refine (dayTimeRange_finishes single).bind ?_
  rintro _ rfl
  refine (fraction_finishes _ _).bind ?_
  rintro ⟨_, origin⟩ rfl
  refine endOfRange_finishes.bind fun _ _ => make_finishes ?_
  exact check_dayTime_iff.2 ⟨fun _ => hdays, fun _ => Parameter.inRange_omitted _⟩

theorem Agrees.interval : Agrees Any (interval start) := by
  refine .seq .unit fun u => ?_
  cases u with
  | year => exact .fromYear
  | month => exact .fromMonth
  | day =>
    refine .bind (.parameterOr _) (fun _ => .fromUnit _ _) ?_
    rintro _ b rfl
    exact (fromUnit_finishes _ (Parameter.inRange_omitted _)).any
  | hour | minute | second => exact .fromUnit _ _

theorem Agrees.moreSegments : ∀ n : Nat, Agrees (fun a b => a <+: b) (moreSegments n)
  | 0 => .pure _
  | n + 1 => by
    refine .acceptOr ?_ (.pure _) fun _ => .pure List.nil_prefix
    refine .seq .name fun segment => ?_
    refine .bind (moreSegments n) (fun segments => .pure _) fun a b h => ?_
    exact .pure (List.cons_prefix_cons.2 ⟨rfl, h⟩)

/-- What a qualified name begins with is one, too. -/
theorem ofSegments_of_prefix {segments segments' : List String} {name : QualifiedName}
    (h : QualifiedName.ofSegments segments = .ok name) (hp : segments' <+: segments)
    (hne : segments' ≠ []) : ∃ name', QualifiedName.ofSegments segments' = .ok name' := by
  obtain rfl := QualifiedName.segments_of_ofSegments h
  exact ⟨_, QualifiedName.ofSegments_segments ⟨segments', hne,
    Nat.le_trans hp.length_le name.length_le, fun s hs => name.ne_empty s (hp.subset hs)⟩⟩

theorem Agrees.unresolved : Agrees Any unresolved := by
  refine .seq .here fun start => ?_
  refine .seq .name fun first => ?_
  refine .bind (.moreSegments _) (fun others => ?_) ?_
  · refine .bind (V := Any) (.orFailAt _ _) (fun name => .make _ _) fun _ _ _ => ?_
    exact make_endsWell fun _ => rfl
  · intro a b hab c c' t c'' hc ht
    obtain ⟨name, c₁, hname, -⟩ := run_bind_ok.1 ht
    obtain ⟨name', ha⟩ := ofSegments_of_prefix (run_orFailAt_ok.1 hname).1
      (List.cons_prefix_cons.2 ⟨rfl, hab⟩) (List.cons_ne_nil first a)
    rw [ha]
    exact make_finishes (n := start) (s := .atom (.unresolved name')) rfl hc

theorem Agrees.twoStrings {V : String × String → String × String → Prop} :
    Agrees V twoStrings := by
  refine .seq (.expectSymbol _) fun _ => ?_
  refine .seq .string fun first => ?_
  refine .seq (.expectSymbol _) fun _ => ?_
  refine .seq .string fun second => ?_
  refine .seq (.expectSymbol _) fun _ => ?_
  exact .pure _

theorem Agrees.raw (loader : Loader) : Agrees Any (raw loader start) := by
  refine .seq .twoStrings fun ⟨className, snapshot⟩ => ?_
  dsimp only
  cases loader.restore className snapshot with
  | ok r => exact .make _ _
  | error e => exact .fault fun _ _ => nofun

theorem Agrees.legacy (loader : Loader) : Agrees Any (legacy loader start) := by
  refine .seq .twoStrings fun ⟨family, payload⟩ => ?_
  dsimp only
  cases Family.ofName? family with
  | none => exact .fault fun _ _ => nofun
  | some f =>
    dsimp only
    cases loader.resolve f payload with
    | ok t => exact .pure _
    | error e => exact .fault fun _ _ => nofun

/-! ## Types with types inside -/

section Inside

variable {loader : Loader} {inner : Reading DataType} {levels : Nat}

theorem nullability_finishes (t : DataType) : Finishes (fun _ => True) (nullability t) := by
  intro c hc
  rw [nullability, run_bind_of_ok (run_here c)]
  have hnull : Finishes (fun _ => True) (do let _ ← acceptKeyword .null; return t) :=
    (accept_finishes _).bind fun _ _ => .pure trivial
  exact hnull.acceptElse hc

theorem Agrees.nullability (t : DataType) : Agrees Any (nullability t) := by
  refine .seq .here fun n => .acceptOr ?_ ?_ fun _ => ?_
  · refine .seq (.expectKeyword _) fun _ => ?_
    exact .orFailAt n _
  · refine .bind (.accept _) (fun _ => .pure t) fun _ _ _ => ?_
    exact .pure trivial
  · exact (accept_finishes _).bind fun _ _ => .pure trivial

/-- A closing symbol, and the making of the type. -/
theorem Agrees.closed (close : Symbol) (n : Nat) (s : Shape DataType) :
    Agrees Any (do Reading.expectSymbol close; Reading.make n s) := by
  refine .seq (.expectSymbol _) fun _ => ?_
  exact .make n s

theorem Agrees.collection (hi : Agrees Any inner) (k : Collection) :
    Agrees Any (collection inner start k) := by
  refine .seq (.expectSymbol _) fun _ => ?_
  refine .bind hi (fun element => .closed _ _ _) fun _ _ _ => ?_
  exact (expectSymbol_finishes _).refused.any

theorem Agrees.map (hi : Agrees Any inner) : Agrees Any (map inner start) := by
  refine .seq (.expectSymbol _) fun _ => ?_
  refine .bind hi (fun key => ?_) fun _ _ _ => ?_
  · refine .seq (.expectSymbol _) fun _ => ?_
    refine .bind hi (fun value => .closed _ _ _) fun _ _ _ => ?_
    exact (expectSymbol_finishes _).refused.any
  · exact (expectSymbol_finishes _).refused.any

theorem Agrees.member (hi : Agrees Any inner) : Agrees Any (member inner) := by
  refine .seq .name fun name => ?_
  refine .bind hi (fun type => ?_) fun _ _ _ => ?_
  · refine .bind .string? (fun description => .pure _) fun _ _ _ => ?_
    exact .pure trivial
  · exact (string?_finishes.bind fun _ _ => .pure trivial).any

theorem moreMembers_finishes (before : List (Member DataType)) :
    ∀ bound : List Token, Finishes (fun _ => True) (moreMembers inner before bound)
  | [] => .pure trivial
  | _ :: _ => Finishes.acceptElse (.pure trivial)

theorem Agrees.moreMembers (hi : Agrees Any inner) :
    ∀ (bound : List Token) (before : List (Member DataType)),
      Agrees Any (moreMembers inner before bound)
  | [], _ => .pure _
  | _ :: bound, before => by
    refine .acceptOr ?_ (.pure _) fun _ => .pure trivial
    refine .bind (Agrees.member hi) (fun m => ?_) fun _ _ _ => ?_
    · exact Agrees.moreMembers hi bound (m :: before)
    · exact (moreMembers_finishes _ bound).any

/-- Every member takes a token, so that it does not matter how many more the bound has. -/
theorem run_moreMembers_eq (hi : ReadsPhrase loader levels inner) :
    ∀ (bound bound' : List Token) {before : List (Member DataType)} {c : Cursor},
      c.rest.length ≤ bound.length → c.rest.length ≤ bound'.length →
        (moreMembers inner before bound).run c = (moreMembers inner before bound').run c
  | [], bound', before, c, h, _ => by
    have hc : c.rest = [] := List.length_eq_zero_iff.1 (Nat.le_zero.1 h)
    cases bound' with
    | nil => rfl
    | cons _ _ =>
      rw [moreMembers, moreMembers, run_bind_of_ok (run_accept_nil hc)]
      rfl
  | _ :: bound, [], before, c, _, h => by
    have hc : c.rest = [] := List.length_eq_zero_iff.1 (Nat.le_zero.1 h)
    rw [moreMembers, moreMembers, run_bind_of_ok (run_accept_nil hc)]
    rfl
  | _ :: bound, _ :: bound', before, c, h, h' => by
    rw [moreMembers, moreMembers, EStateM.run_bind, EStateM.run_bind]
    rcases ha : (Reading.accept (.symbol .comma)).run c with ⟨b, c₁⟩ | ⟨e, c₁⟩
    · cases b with
      | false => rfl
      | true =>
        dsimp only
        rw [if_pos rfl, if_pos rfl, EStateM.run_bind, EStateM.run_bind]
        rcases hm : (member inner).run c₁ with ⟨m, c₂⟩ | ⟨e, c₂⟩
        · obtain ⟨_, _, -, -, -, hp⟩ := member_passes hi hm
          have hlen := congrArg List.length ((accept_passes ha).trans hp).rest
          simp only [List.length_append, List.length_cons] at hlen h h'
          exact run_moreMembers_eq hi bound bound' (by omega) (by omega)
        · rfl
    · rfl

theorem Agrees.membersAfter (hi : Agrees Any inner) (hp : ReadsPhrase loader levels inner)
    (before : List (Member DataType)) : Agrees Any (membersAfter inner before) := by
  refine ⟨fun c r r' => ?_, fun c => (Agrees.moreMembers hi c.rest before).onward c⟩
  -- what is left is longer for the one run than for the other, but all of it bounds both
  have run : ∀ (q : List Token), q.length ≤ r.length + r'.length →
      (Reading.membersAfter inner before).run (c.extend q) =
        (Reading.moreMembers inner before (c.rest ++ r ++ r')).run (c.extend q) := by
    intro q hq
    refine run_moreMembers_eq hp _ _ (Nat.le_refl _) ?_
    simp only [Cursor.extend, List.length_append]
    omega
  rw [run r (Nat.le_add_right _ _), run r' (Nat.le_add_left _ _)]
  exact (Agrees.moreMembers hi _ before).agree c r r'

theorem membersAfter_finishes (before : List (Member DataType)) :
    Finishes (fun _ => True) (membersAfter inner before) :=
  fun c hc => moreMembers_finishes before c.rest hc

theorem Agrees.openRow {V : Symbol → Symbol → Prop} : Agrees V openRow := by
  refine .acceptOr (.pure _) ?_ fun _ => ?_
  · exact .acceptOrRefuse fun _ _ => nofun
  · exact refuse_finishes.acceptElse

theorem Agrees.fields (hi : Agrees Any inner) (hp : ReadsPhrase loader levels inner)
    (close : Symbol) : Agrees Any (fields inner close) := by
  refine .peekElse (.pure []) ?_ fun _ => ?_
  · refine .bind (.member hi) (fun first => .membersAfter hi hp _) fun _ _ _ => ?_
    exact (membersAfter_finishes _).any
  · exact name_finishes.refused.refused

theorem Agrees.row (hi : Agrees Any inner) (hp : ReadsPhrase loader levels inner) :
    Agrees Any (row inner start) := by
  refine .seq .openRow fun close => ?_
  refine .bind (.fields hi hp close) (fun fields => .closed close _ _) fun _ _ _ => ?_
  exact (expectSymbol_finishes _).refused.any

theorem Agrees.structured (hi : Agrees Any inner) (hp : ReadsPhrase loader levels inner) :
    Agrees Any (structured inner start) := by
  refine .seq (.expectSymbol _) fun _ => ?_
  refine .seq .string fun className => ?_
  refine .bind (.membersAfter hi hp _) (fun attributes => .closed _ _ _) fun _ _ _ => ?_
  exact (expectSymbol_finishes _).refused.any

/-- A keyword and what follows it. -/
theorem AgreesBefore.afterKeyword {t : Token} (hi : Agrees Any inner)
    (hp : ReadsPhrase loader levels inner) (k : Keyword) :
    AgreesBefore t Any (do
      let start ← Reading.here
      Reading.advance
      afterKeyword loader inner start k) := by
  have behind {x : Nat → Reading DataType} (hx : ∀ start, Agrees Any (x start)) :
      AgreesBefore t Any (do
        let start ← Reading.here
        Reading.advance
        x start) :=
    .here fun start => .advance (hx start)
  cases k with
  | char | varchar | binary | varbinary => exact behind fun _ => .sized _
  | decimal | dec | numeric => exact behind fun _ => .decimal
  | double =>
    refine behind fun start => .bind (.accept _) (fun _ => .make start _) fun _ _ _ => ?_
    exact make_endsWell id
  | time => exact behind fun _ => .time
  | timestamp => exact behind fun _ => .timestamp
  | timestampLtz => exact behind fun _ => .localZonedTimestamp
  | interval => exact behind fun _ => .interval
  | array | multiset => exact behind fun _ => .collection hi _
  | map => exact behind fun _ => .map hi
  | row => exact behind fun _ => .row hi hp
  | structured => exact behind fun _ => .structured hi hp
  | raw => exact behind fun _ => .raw loader
  | legacy => exact behind fun _ => .legacy loader
  | string | bytes | boolean | tinyint | smallint | int | integer | bigint | float | date | null
  | descriptor => exact behind fun start => .make start _
  | _ => exact .reject

theorem Agrees.base (hi : Agrees Any inner) (hp : ReadsPhrase loader levels inner) :
    Agrees Any (base loader inner) := by
  refine .look (fun t => ?_) (.refuse fun _ _ => nofun) fun _ => refuse_finishes
  cases t with
  | keyword k => exact .afterKeyword hi hp k
  | word | quoted => exact Agrees.unresolved.before
  | _ => exact .refuse fun _ _ => nofun

end Inside

theorem Agrees.enter {V : Unit → Unit → Prop} : Agrees V enter :=
  ⟨fun c _ _ => .ok (c := c.entered) rfl, fun _ => Nat.le_refl _⟩

theorem Agrees.leave {V : Unit → Unit → Prop} : Agrees V leave :=
  ⟨fun c _ _ => .ok (c := c.left) rfl, fun _ => Nat.le_refl _⟩

theorem Agrees.begin {V : Unit → Unit → Prop} : Agrees V begin :=
  ⟨fun c _ _ => .ok (c := c.started) rfl, fun _ => Nat.le_refl _⟩

theorem Agrees.tooDeep (limit number : Nat) : Agrees V (tooDeep limit number) := by
  refine .seq .enter fun _ => ?_
  exact .fault fun _ _ => nofun

theorem Agrees.nested {x : Reading DataType} (hx : Agrees Any x) : Agrees Any (nested x) := by
  refine .seq .enter fun _ => ?_
  refine .bind hx (fun t => ?_) fun t _ _ => ?_
  · refine .seq .leave fun _ => ?_
    exact .pure t
  · exact Finishes.any fun _ hc => ⟨hc, trivial⟩

theorem wrapper?_finishes : Finishes (· = none) wrapper? := by
  intro c hc
  rw [run_wrapper?, hc]
  exact ⟨hc, rfl⟩

theorem Agrees.wrapper? : Agrees (fun a _ => a = none) wrapper? := by
  refine .seq .here fun start => .look (fun t => ?_) (.pure none) fun _ => .pure rfl
  split
  · exact .advance (.pure _)
  · exact (Agrees.pure none).before

theorem wrapped_finishes (limit : Nat) (t : DataType) :
    ∀ levels : Nat, Finishes (fun _ => True) (wrapped limit levels t)
  | 0 | _ + 1 => wrapper?_finishes.bind fun _ h => h ▸ .pure trivial

theorem Agrees.wrapped (limit : Nat) :
    ∀ (levels : Nat) (t : DataType), Agrees Any (wrapped limit levels t)
  | 0, t => by
    refine .bind .wrapper? (fun w => ?_) ?_
    · cases w with
      | some w => exact .tooDeep _ _
      | none => exact .pure t
    · rintro _ b rfl
      exact Finishes.any (.pure trivial)
  | levels + 1, t => by
    rw [wrapped_succ]
    refine .bind .wrapper? (fun w => ?_) ?_
    · cases w with
      | some w =>
        refine .nested (.bind (.nullability _) (fun u => ?_) fun u _ _ => ?_)
        · exact Agrees.wrapped limit levels u
        · exact (wrapped_finishes limit u levels).any
      | none => exact .pure t
    · rintro _ b rfl
      exact Finishes.any (.pure trivial)

theorem Agrees.typeExpression (loader : Loader) (limit : Nat) :
    ∀ levels : Nat, Agrees Any (typeExpression loader limit levels)
  | 0 => by
    refine .seq .begin fun _ => ?_
    refine .seq .here fun n => ?_
    exact .tooDeep limit n
  | levels + 1 => by
    rw [typeExpression_succ]
    have hbase := Agrees.base (Agrees.typeExpression loader limit levels)
      (typeExpression_passes loader limit levels)
    refine .seq .begin fun _ => .nested ?_
    refine .bind hbase (fun t => ?_) fun t _ _ => ?_
    · refine .bind (.nullability t) (fun u => .wrapped limit levels u) fun u _ _ => ?_
      exact (wrapped_finishes limit u levels).any
    · exact ((nullability_finishes t).bind fun u _ => wrapped_finishes limit u levels).any

theorem Agrees.ending (t : DataType) : Agrees Any (ending t) :=
  .look (fun _ => .refuse fun _ _ => nofun) (.pure t) fun _ => .pure trivial

theorem ending_finishes (t : DataType) : Finishes (fun _ => True) (ending t) := by
  intro c hc
  rw [ending, run_bind_of_ok (run_peek c), hc]
  exact ⟨hc, trivial⟩

/-- Runs over tokens that begin with `us` agree up to there. -/
theorem runOn_agree (loader : Loader) (limit : Nat) (us r r' : List Token) :
    Agree us.length r r' Any (runOn loader limit (us ++ r)) (runOn loader limit (us ++ r')) := by
  have h : Agrees Any (typeExpression loader limit limit >>= ending) := by
    refine .bind (.typeExpression loader limit limit) (fun t => .ending t) fun t _ _ => ?_
    exact (ending_finishes t).any
  have hagree := h.agree { rest := us } r r'
  rwa [Cursor.stop, Nat.zero_add] at hagree

end Reading

end SqlTypes
