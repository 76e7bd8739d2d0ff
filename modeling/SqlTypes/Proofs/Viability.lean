import SqlTypes.Proofs.Beginnings
import SqlTypes.Proofs.Failures
import SqlTypes.Proofs.Lookahead

/-!
# What is passed can be completed

Wherever a reading stands, some sentence begins with what it has passed. So a token that it stops at
because it cannot stand there comes behind the beginning of a sentence; and where a description ends
too early, it can be continued (`Reading.runOn_viable`). There is one exception: behind an interval
of seconds, the word `TO` is passed, though no unit is left to go on with.
-/

namespace SqlTypes

open Grammar Cursor

/-- The kinds of problem that a token has where it cannot stand at all. -/
def ErrorKind.OfSyntax : ErrorKind → Prop
  | .tokenExpected | .keywordExpected | .unsupportedType | .unexpectedToken => True
  | _ => False

/-- The tokens can be continued, or end with `TO` behind an interval of seconds. -/
def Grammar.Unfinished (ts : List Token) : Prop :=
  GoesOn ts ∨ [.keyword .interval, .keyword .second, .keyword .to] <:+ ts

/-- What a fault at the cursor `c` tells of the tokens `ts` is so. -/
def Fault.Blames (ts : List Token) (c : Cursor) : Fault → Prop
  | .problem (.token n) p => p.kind.OfSyntax →
    n < ts.length ∧ Begins (ts.take n) ∧ Reading.progressTo c (.problem (.token n) p) = n
  | .problem .endOfInput _ => .unterminated ∈ ts ∨ Unfinished ts
  | .rawRestore .. => True

namespace Cursor

variable {c c' : Cursor} {ts us vs : List Token} {h : Nat}

/-- The cursor stands behind `us`, which the tokens `ts` begin with. -/
structure Behind (ts us : List Token) (c : Cursor) : Prop where
  rest : ts = us ++ c.rest
  passed : c.passed = us.length

theorem Behind.passes (hc : c.Behind ts us) (hp : c.Passes vs h c') : c'.Behind ts (us ++ vs) := by
  refine ⟨?_, ?_⟩
  · rw [hc.rest, hp.rest, List.append_assoc]
  · rw [hp.passed, hc.passed, List.length_append]

theorem Behind.take (hc : c.Behind ts us) : ts.take c.passed = us := by
  rw [hc.passed, hc.rest, List.take_left]

theorem Behind.passed_lt (hc : c.Behind ts us) {t : Token} (ht : c.rest.head? = some t) :
    c.passed < ts.length := by
  obtain ⟨rest, hr⟩ := List.head?_eq_some_iff.1 ht
  rw [hc.passed, hc.rest, hr, List.length_append, List.length_cons]
  omega

end Cursor

instance : Inhabited Phrase :=
  ⟨⟨.atom .integer, .unmarked, []⟩⟩

namespace Reading

variable {α β : Type} {ts us : List Token} {x y : Reading α} {f : α → Reading β} {t : Token}
  {start : Nat}

/-- Behind `us`, what a fault of `x` tells of the tokens `ts` is so. -/
abbrev Viable (ts us : List Token) (x : Reading α) : Prop :=
  Leads (Behind ts us) x (fun _ _ => True) fun f c => f.Blames ts c

/-- What any fault of `x` tells of the tokens `ts` is so, wherever it begins. -/
abbrev Harmless (ts : List Token) (x : Reading α) : Prop :=
  Leads (fun _ => True) x (fun _ _ => True) fun f c => f.Blames ts c

theorem progressTo_passed (c : Cursor) (p : Problem) :
    progressTo c (.problem (.token c.passed) p) = c.passed := by
  cases p <;> rfl

namespace Harmless

theorem of_ok (h : ∀ c, ∃ a c', x.run c = .ok a c') : Harmless ts x := by
  intro c _
  obtain ⟨a, c', hr⟩ := h c
  rw [hr]
  trivial

theorem pure (a : α) : Harmless ts (Pure.pure a) :=
  of_ok fun c => ⟨a, c, rfl⟩

theorem fault {e : Fault} (h : ∀ c, e.Blames ts c) : Harmless ts (throw e : Reading α) :=
  fun c _ => h c

theorem orFailAt (number : Nat) (e : Except BadParameter α) : Harmless ts (orFailAt number e) := by
  cases e with
  | ok a => exact pure a
  | error b => exact fault fun _ => nofun

theorem bind (hx : Harmless ts x) (hf : ∀ a, Harmless ts (f a)) : Harmless ts (x >>= f) :=
  Leads.bind hx hf

theorem look {f : Option Token → Reading α} (hf : ∀ o, Harmless ts (f o)) :
    Harmless ts (do f (← peek)) :=
  fun _ _ => hf _ trivial

theorem make (number : Nat) (s : Shape DataType) : Harmless ts (make number s) :=
  orFailAt number _

theorem advance (a : α) : Harmless ts (do Reading.advance; return a) := by
  refine of_ok fun c => ?_
  rcases advance_cases c with ⟨t, -, hrun⟩ | hrun
  · exact ⟨a, c.skip, run_bind_of_ok hrun⟩
  · exact ⟨a, c, run_bind_of_ok hrun⟩

theorem accept (t : Token) : Harmless ts (accept t) := by
  intro c _
  rw [run_accept]
  split_ifs <;> trivial

theorem string? : Harmless ts string? := by
  refine look fun o => ?_
  split
  · exact advance _
  · exact pure none

theorem wrapper? : Harmless ts wrapper? := by
  intro c _
  rcases run_wrapper?_cases c with ⟨k, t, -, hw⟩ | hw <;> rw [hw] <;> trivial

theorem tooDeep (limit number : Nat) : Harmless ts (tooDeep limit number) :=
  fun _ _ => nofun

theorem endOfRange : Harmless ts endOfRange := by
  intro c _
  rw [Reading.endOfRange, run_bind_of_ok (run_peek c)]
  split_ifs with ht
  · rw [resolutionInvalid, Reading.refuse, run_bind_of_ok (run_peek c), ht]
    exact False.elim
  · trivial

theorem viable (hx : Harmless ts x) : Viable ts us x :=
  fun _ _ => hx trivial

end Harmless

namespace Viable

theorem bind (hx : Viable ts us x) (hf : ∀ ⦃c a c'⦄, x.run c = .ok a c' →
    ∃ vs h, c.Passes vs h c' ∧ Viable ts (us ++ vs) (f a)) : Viable ts us (x >>= f) := by
  intro c hc
  have hx := hx hc
  rw [EStateM.run_bind]
  rcases hr : x.run c with ⟨a, c₁⟩ | ⟨e, c₁⟩ <;> rw [hr] at hx
  · obtain ⟨vs, h, hp, hf⟩ := hf hr
    exact hf (hc.passes hp)
  · exact hx

/-- Where nothing that follows blames a token, it does not matter what is passed. -/
theorem andThen (hx : Viable ts us x) (hf : ∀ a, Harmless ts (f a)) : Viable ts us (x >>= f) :=
  Leads.bind hx hf

theorem here {f : Nat → Reading α} (hf : Viable ts us (f us.length)) :
    Viable ts us (do f (← Reading.here)) := by
  intro c hc
  rw [run_bind_of_ok (run_here c), hc.passed]
  exact hf hc

/-- What follows a look at the next token. -/
theorem look {f : Option Token → Reading α} (hf : ∀ o, Viable ts us (f o)) :
    Viable ts us (do f (← peek)) := by
  intro c hc
  rw [run_bind_of_ok (run_peek c)]
  exact hf _ hc

theorem refuse {p : Token → Problem} (hend : Unfinished us)
    (hp : ∀ t, (p t).kind.OfSyntax → Begins us) :
    Viable ts us (refuse p : Reading α) := by
  intro c hc
  rw [Reading.refuse, run_bind_of_ok (run_peek c)]
  rcases ht : c.rest.head? with _ | t
  · have hts : ts = us := by rw [hc.rest, List.head?_eq_none_iff.1 ht, List.append_nil]
    exact .inr (hts ▸ hend)
  · cases t with
    | unterminated =>
      obtain ⟨rest, hr⟩ := List.head?_eq_some_iff.1 ht
      exact .inl (by rw [hc.rest, hr]; simp)
    | stray u => exact False.elim
    | _ => exact fun h => ⟨hc.passed_lt ht, hc.take ▸ hp _ h, progressTo_passed c _⟩

/-- Where a sentence goes on, anything may be expected. -/
theorem refuse_of_goesOn {p : Token → Problem} (h : GoesOn us) :
    Viable ts us (Reading.refuse p : Reading α) :=
  refuse (.inl h) fun _ _ => h.begins

theorem acceptElse (hx : Viable ts (us ++ [t]) x) (hy : Viable ts us y) :
    Viable ts us (do if ← Reading.accept t then x else y) := by
  refine bind (Harmless.accept t).viable fun c b c' hb => ⟨_, 0, accept_passes hb, ?_⟩
  cases b with
  | true => exact hx
  | false =>
    rw [if_neg Bool.false_ne_true, if_neg Bool.false_ne_true, List.append_nil]
    exact hy

theorem expectSymbol {s : Symbol} (h : Begins (us ++ [.symbol s])) :
    Viable ts us (expectSymbol s) :=
  acceptElse (Harmless.pure ()).viable (refuse_of_goesOn h.goesOn)

theorem expectKeyword {k : Keyword} (h : Begins (us ++ [.keyword k])) :
    Viable ts us (expectKeyword k) :=
  acceptElse (Harmless.pure ()).viable (refuse_of_goesOn h.goesOn)

theorem symbol {s : Symbol} {x : Reading α} (h : Begins (us ++ [.symbol s]))
    (hx : Viable ts (us ++ [.symbol s]) x) : Viable ts us (do Reading.expectSymbol s; x) :=
  bind (expectSymbol h) fun _ _ _ hr => ⟨_, 0, expectSymbol_passes hr, hx⟩

theorem keyword {k : Keyword} {x : Reading α} (h : Begins (us ++ [.keyword k]))
    (hx : Viable ts (us ++ [.keyword k]) x) : Viable ts us (do Reading.expectKeyword k; x) :=
  bind (expectKeyword h) fun _ _ _ hr => ⟨_, 0, expectKeyword_passes hr, hx⟩

theorem string {f : String → Reading α} (h : Begins (us ++ [.string ""]))
    (hf : ∀ s, Viable ts (us ++ [.string s]) (f s)) : Viable ts us (string >>= f) := by
  have hstring : Viable ts us Reading.string := by
    refine bind (look fun o => ?_) fun c s c' hr => ⟨_, 0, string?_passes hr, ?_⟩
    · split
      · exact (Harmless.advance _).viable
      · exact (Harmless.pure none).viable
    · cases s with
      | some content => exact (Harmless.pure content).viable
      | none =>
        rw [Option.map_none, Option.toList_none, List.append_nil]
        exact refuse_of_goesOn h.goesOn
  exact bind hstring fun c s c' hr => ⟨_, 0, string_passes hr, hf s⟩

theorem name {f : String → Reading α} {n : Name} (h : Begins (us ++ [n.token]))
    (hf : ∀ n : Name, Viable ts (us ++ [n.token]) (f n.text)) : Viable ts us (name >>= f) := by
  have hname : Viable ts us Reading.name := by
    refine look fun o => ?_
    split
    · exact (Harmless.advance _).viable
    · exact (Harmless.advance _).viable
    · exact refuse_of_goesOn h.goesOn
  refine bind hname fun c s c' hr => ?_
  obtain ⟨n, rfl, hp⟩ := name_passes hr
  exact ⟨_, 0, hp, hf n⟩

theorem integer {f : Numeral → Reading α} (h : Begins (us ++ [.integer ""]))
    (hf : ∀ n digits, Viable ts (us ++ [.integer digits]) (f n)) :
    Viable ts us (integer >>= f) := by
  have hinteger : Viable ts us Reading.integer := by
    refine look fun o => ?_
    split
    · refine here ?_
      split
      · exact (Harmless.advance _).viable
      · exact Harmless.viable (.fault fun _ => nofun)
    · exact refuse_of_goesOn h.goesOn
  refine bind hinteger fun c n c' hr => ?_
  obtain ⟨digits, -, hp⟩ := integer_passes hr
  exact ⟨_, 0, hp, hf n digits⟩

theorem parameterOr (o : Numeral) (h : ∀ d, Begins (us ++ parameterTokens d)) :
    Viable ts us (parameterOr o) := by
  refine acceptElse (integer ?_ fun n digits => ?_) (Harmless.pure o).viable
  · exact (h (some "")).shorter (by simp [parameterTokens])
  · refine symbol ?_ (Harmless.pure n).viable
    simpa [parameterTokens] using h (some digits)

theorem withParameter {p : Parameter} {behind : Reading α} {atom : Nat → α → Atom}
    (h : ∀ d, Begins (us ++ parameterTokens d))
    (hbehind : ∀ d, Viable ts (us ++ parameterTokens d) behind) :
    Viable ts us (withParameter start p behind atom) := by
  refine bind (parameterOr _ h) fun c n c' hn => ?_
  obtain ⟨d, -, hp⟩ := parameterOr_passes hn
  refine ⟨_, 0, hp, andThen (hbehind d) fun a => ?_⟩
  exact Harmless.make _ _

theorem sized (s : Sized) (h : ∀ d, Begins (us ++ parameterTokens d)) :
    Viable ts us (sized start s) :=
  withParameter h fun _ => (Harmless.pure ()).viable

theorem scale (h : ∀ d, Begins (us ++ scaleTokens d)) : Viable ts us scale := by
  refine acceptElse (integer ?_ fun n _ => ?_) (Harmless.pure omittedScale).viable
  · simpa [scaleTokens] using h (some "")
  · exact (Harmless.pure n.value).viable

theorem decimal (h : ∀ p d, Begins (us ++ .symbol .openParen :: .integer p ::
    (scaleTokens d ++ [.symbol .closeParen]))) : Viable ts us (decimal start) := by
  refine acceptElse (integer ?_ fun n p => ?_) (Harmless.make _ _).viable
  · exact (h "" none).shorter (by simp)
  · refine bind (scale fun d => (h p d).shorter (by simp)) fun c s c' hs => ?_
    obtain ⟨d, -, hp⟩ := scale_passes hs
    refine ⟨_, 0, hp, andThen (expectSymbol ?_) fun _ => Harmless.make _ _⟩
    simpa using h p d

theorem timeZone (h : Begins (us ++ [.keyword .time, .keyword .zone])) :
    Viable ts us timeZone :=
  keyword (h.shorter (by simp)) (expectKeyword (by simpa using h))

theorem withoutZone (h : Begins (us ++ Zone.without.tokens)) : Viable ts us withoutZone :=
  acceptElse (timeZone (by simpa [Zone.tokens] using h)) (Harmless.pure ()).viable

theorem time
    (h : ∀ (d : Option String) (b : Bool), Begins (us ++ (parameterTokens d ++
      (if b then Zone.without else Zone.unmarked).tokens))) : Viable ts us (time start) := by
  refine withParameter (fun d => (h d false).shorter (by simp)) fun d => withoutZone ?_
  simpa using h d true

theorem withZone (h : ∀ z : Zone, Begins (us ++ z.tokens)) : Viable ts us withZone := by
  refine acceptElse ?_ (Harmless.pure _).viable
  refine bind (Harmless.accept _).viable fun c b c' hb => ⟨_, 0, accept_passes hb, ?_⟩
  refine andThen (timeZone ?_) fun _ => Harmless.pure _
  cases b with
  | true => simpa [Zone.tokens] using h .localZoned
  | false => simpa [Zone.tokens] using h .zoned

theorem zone (h : ∀ z : Zone, Begins (us ++ z.tokens)) : Viable ts us zone := by
  refine acceptElse (andThen (timeZone ?_) fun _ => Harmless.pure _) (withZone h)
  simpa [Zone.tokens] using h .without

theorem timestamp (h : ∀ d z, Begins (us ++ (parameterTokens d ++ Zone.tokens z))) :
    Viable ts us (timestamp start) := by
  refine withParameter (fun d => (h d .unmarked).shorter (by simp)) fun d => zone fun z => ?_
  simpa using h d z

theorem localZonedTimestamp (h : ∀ d, Begins (us ++ parameterTokens d)) :
    Viable ts us (localZonedTimestamp start) :=
  withParameter h fun _ => (Harmless.pure ()).viable

theorem unit (h : GoesOn us) : Viable ts us unit := by
  refine look fun o => ?_
  split
  · exact (Harmless.advance _).viable
  · exact refuse_of_goesOn h

theorem toMonth (h : Begins (us ++ [.keyword .month])) : Viable ts us toMonth :=
  acceptElse (Harmless.pure _).viable (refuse_of_goesOn h.goesOn)

theorem yearRange (h : Begins (us ++ monthTokens true)) : Viable ts us yearRange :=
  acceptElse (toMonth (by simpa [monthTokens] using h)) (Harmless.pure _).viable

theorem fromYear (h : ∀ d b, Begins (us ++ (parameterTokens d ++ monthTokens b))) :
    Viable ts us (fromYear start) := by
  refine bind (parameterOr _ fun d => (h d false).shorter (by simp)) fun c n c' hn => ?_
  obtain ⟨d, -, hp⟩ := parameterOr_passes hn
  refine ⟨_, 0, hp, andThen (yearRange ?_) fun r => ?_⟩
  · simpa using h d true
  · exact Harmless.endOfRange.bind fun _ => Harmless.make _ _

theorem rangeFrom (first : TimeUnit) (h : Unfinished us) : Viable ts us (rangeFrom first) := by
  refine look fun o => ?_
  split
  · exact (Harmless.advance _).viable
  · exact refuse h fun _ => nofun

theorem fraction (range : DayTime) (h : ∀ d, Begins (us ++ precisionTokens range.hasFraction d)) :
    Viable ts us (fraction start range) := by
  unfold Reading.fraction
  split_ifs with hr
  · exact parameterOr _ fun d => by simpa [precisionTokens, hr] using h d
  · exact (Harmless.pure _).viable

theorem fromUnit {single : DayTime} (hs : single.first = single.last) (days : Numeral)
    (hto : Unfinished (us ++ [.keyword .to]))
    (h : ∀ (r : DayTime) (d : Option String), r.first = single.first →
      Begins (us ++ (endTokens r ++ precisionTokens r.hasFraction d))) :
    Viable ts us (fromUnit start single days) := by
  have hrange : Viable ts us (dayTimeRange single) :=
    acceptElse (rangeFrom _ hto) (Harmless.pure _).viable
  refine bind hrange fun c r c' hr => ?_
  obtain ⟨hfirst, hp⟩ := dayTimeRange_passes hs hr
  refine ⟨_, 0, hp, andThen (fraction r fun d => ?_) fun n => ?_⟩
  · simpa using h r d hfirst
  · exact Harmless.endOfRange.bind fun _ => Harmless.make _ _

/-- Behind any single unit but seconds, there is a range to go on with. -/
theorem exists_range {single : DayTime} (hs : single.first = single.last)
    (h : single ≠ .second) : ∃ r : DayTime, r.first = single.first ∧ r.first ≠ r.last := by
  cases single with
  | day => exact ⟨.dayToHour, rfl, by decide⟩
  | hour => exact ⟨.hourToMinute, rfl, by decide⟩
  | minute => exact ⟨.minuteToSecond, rfl, by decide⟩
  | second => exact absurd rfl h
  | _ => exact absurd hs (by decide)

/-- Behind `TO` there is a unit to go on with, except for seconds. -/
theorem unfinished_to (h : ∀ a : AtomPhrase, Begins (us ++ a.tokens)) {single : DayTime}
    (hs : single.first = single.last) (d : Option String) :
    Unfinished (us ++ [.keyword .interval] ++ [.keyword single.first.keyword] ++
      precisionTokens single.hasDay d ++ [.keyword .to]) := by
  by_cases hsecond : single = .second
  · subst hsecond
    exact .inr ⟨us, by simp [DayTime.hasDay, DayTime.first, TimeUnit.keyword, precisionTokens]⟩
  · obtain ⟨r, hfirst, hne⟩ := exists_range hs hsecond
    have hr := h (.dayTime r d none)
    rw [AtomPhrase.tokens, endTokens, if_neg hne, hasDay_of_first hfirst, hfirst] at hr
    exact .inl (Begins.goesOn (by simpa using hr))

theorem dayTime (h : ∀ a : AtomPhrase, Begins (us ++ a.tokens)) (single : DayTime)
    (hs : single.first = single.last) (days : Numeral) (d : Option String) :
    Viable ts (us ++ [.keyword .interval] ++ [.keyword single.first.keyword] ++
      precisionTokens single.hasDay d) (Reading.fromUnit start single days) := by
  refine fromUnit hs days (unfinished_to h hs d) fun r f hfirst => ?_
  have hr := h (.dayTime r d f)
  rw [AtomPhrase.tokens, hasDay_of_first hfirst, hfirst] at hr
  simpa using hr

theorem withoutDays (h : ∀ a : AtomPhrase, Begins (us ++ a.tokens)) (single : DayTime)
    (hs : single.first = single.last) (hday : single.hasDay = false) (days : Numeral) :
    Viable ts (us ++ [.keyword .interval] ++ [.keyword single.first.keyword])
      (Reading.fromUnit start single days) := by
  simpa [precisionTokens, hday] using dayTime h single hs days none

theorem interval (h : ∀ a : AtomPhrase, Begins (us ++ a.tokens)) :
    Viable ts (us ++ [.keyword .interval]) (interval start) := by
  have hgoesOn : GoesOn (us ++ [.keyword .interval]) :=
    Begins.goesOn (by simpa [AtomPhrase.tokens] using h .months)
  refine bind (unit hgoesOn) fun c u c' hu => ⟨_, 0, unit_passes hu, ?_⟩
  cases u with
  | year =>
    exact fromYear fun d b => by
      simpa [AtomPhrase.tokens, TimeUnit.keyword] using h (.years d b)
  | month => exact (Harmless.endOfRange.bind fun _ => .make _ _).viable
  | day =>
    refine bind (parameterOr _ fun d => ?_) fun c n c' hn => ?_
    · exact (h (.dayTime .day d none)).shorter (by
        simp [AtomPhrase.tokens, DayTime.hasDay, DayTime.first, TimeUnit.keyword, precisionTokens])
    · obtain ⟨d, -, hp⟩ := parameterOr_passes hn
      exact ⟨_, 0, hp, dayTime h .day rfl n d⟩
  | hour => exact withoutDays h .hour rfl rfl _
  | minute => exact withoutDays h .minute rfl rfl _
  | second => exact withoutDays h .second rfl rfl _

theorem moreSegments : ∀ (n : Nat) {us : List Token},
    (∀ names : List Name, names.length ≤ n → Begins (us ++ dotted names)) →
      Viable ts us (moreSegments n)
  | 0, _, _ => (Harmless.pure _).viable
  | n + 1, us, h => by
    refine acceptElse (name (n := .word "") ?_ fun a => ?_) (Harmless.pure _).viable
    · simpa [dotted] using h [.word ""] (by simp)
    · refine (moreSegments n fun names hlen => ?_).andThen fun _ => .pure _
      simpa [dotted] using h (a :: names) (by simpa using hlen)

theorem unresolved (h : ∀ a : AtomPhrase, Begins (us ++ a.tokens)) : Viable ts us unresolved := by
  refine here (name (n := .word "") (h (.name (.word ""))) fun a => ?_)
  refine andThen (moreSegments _ fun names hlen => ?_) fun others => ?_
  · match names, hlen with
    | [], _ => simpa [dotted, AtomPhrase.tokens] using h (.name a)
    | [b], _ => simpa [dotted, AtomPhrase.tokens] using h (.nameIn a b)
    | [b, d], _ => simpa [dotted, AtomPhrase.tokens] using h (.nameInIn a b d)
  · exact (Harmless.orFailAt _ _).bind fun name => Harmless.make _ _

theorem twoStrings (h : ∀ a b, Begins (us ++ stringsTokens a b)) : Viable ts us twoStrings := by
  have hbegins : ∀ a, Begins (us ++ [.symbol .openParen, .string a, .symbol .comma, .string ""]) :=
    fun a => (h a "").shorter (by simp [stringsTokens])
  refine symbol ((hbegins "").shorter (by simp)) ?_
  refine string ((hbegins "").shorter (by simp)) fun a => ?_
  refine symbol ((hbegins a).shorter (by simp)) ?_
  refine string ((hbegins a).shorter (by simp)) fun b => ?_
  refine andThen (expectSymbol ?_) fun _ => Harmless.pure _
  simpa [stringsTokens] using h a b

theorem raw (loader : Loader) (h : ∀ a b, Begins (us ++ stringsTokens a b)) :
    Viable ts us (raw loader start) := by
  refine (twoStrings h).andThen fun ⟨className, snapshot⟩ => ?_
  dsimp only
  cases loader.restore className snapshot with
  | ok r => exact .make _ _
  | error e => exact .fault fun _ => trivial

theorem legacy (loader : Loader) (h : ∀ a b, Begins (us ++ stringsTokens a b)) :
    Viable ts us (legacy loader start) := by
  refine (twoStrings h).andThen fun ⟨family, payload⟩ => ?_
  dsimp only
  cases Family.ofName? family with
  | none => exact .fault fun _ => nofun
  | some f =>
    dsimp only
    cases loader.resolve f payload with
    | ok t => exact .pure _
    | error e => exact .fault fun _ => nofun

/-! ## Types with types inside -/

section Inside

/-- The reading is viable wherever any type expression may stand. -/
def ViableType (ts : List Token) (x : Reading DataType) : Prop :=
  ∀ {us : List Token}, (∀ p : Phrase, Begins (us ++ p.tokens)) → Viable ts us x

variable {loader : Loader} {inner : Reading DataType} {levels : Nat}

theorem nullability (t : DataType) (h : ∀ n : Nullability, Begins (us ++ n.tokens)) :
    Viable ts us (nullability t) := by
  refine here (acceptElse (keyword ?_ (Harmless.orFailAt _ _).viable)
    ((Harmless.accept _).bind fun _ => .pure t).viable)
  simpa [Nullability.tokens] using h .notNull

theorem collection (hi : ViableType ts inner)
    (hp : ReadsPhrase loader levels inner) (k : Collection)
    (h : ∀ p : Phrase, Begins (us ++ .symbol .openAngle :: (p.tokens ++ [.symbol .closeAngle]))) :
    Viable ts us (collection inner start k) := by
  refine symbol ((h default).shorter (by simp)) (bind (hi fun p => ?_) fun c t c' ht => ?_)
  · exact (h p).shorter (by simp)
  · obtain ⟨p, -, -, hp⟩ := hp ht
    exact ⟨_, _, hp, (expectSymbol (by simpa using h p)).andThen fun _ => .make _ _⟩

theorem map (hi : ViableType ts inner)
    (hp : ReadsPhrase loader levels inner)
    (h : ∀ p q : Phrase, Begins (us ++ .symbol .openAngle ::
      (p.tokens ++ .symbol .comma :: (q.tokens ++ [.symbol .closeAngle])))) :
    Viable ts us (map inner start) := by
  refine symbol ((h default default).shorter (by simp))
    (bind (hi fun p => ?_) fun c t c' ht => ?_)
  · exact (h p default).shorter (by simp)
  obtain ⟨p, -, -, hpp⟩ := hp ht
  refine ⟨_, _, hpp, symbol ?_ (bind (hi fun q => ?_) fun c t c' ht => ?_)⟩
  · exact (h p default).shorter (by simp)
  · exact (h p q).shorter (by simp)
  obtain ⟨q, -, -, hqp⟩ := hp ht
  exact ⟨_, _, hqp, (expectSymbol (by simpa using h p q)).andThen fun _ => .make _ _⟩

theorem member (hi : ViableType ts inner)
    (h : ∀ (n : Name) (p : Phrase), Begins (us ++ n.token :: p.tokens)) :
    Viable ts us (member inner) := by
  refine name (n := .word "") ((h (.word "") default).shorter (by simp)) fun n =>
    (hi fun p => ?_).andThen fun _ => Harmless.string?.bind fun _ => .pure _
  simpa using h n p

/-- The tokens of a member go on with those of further members. -/
theorem begins_member {q : MemberPhrase Phrase} {qs : List (MemberPhrase Phrase)}
    (h : ∀ qs, Begins (us ++ Phrase.membersTokens qs)) :
    Begins (us ++ [.symbol .comma] ++ q.name.token ::
      (q.type.tokens ++ (q.description.map Token.string).toList) ++ Phrase.membersTokens qs) := by
  simpa [Phrase.membersTokens] using h (q :: qs)

theorem moreMembers (hi : ViableType ts inner)
    (hp : ReadsPhrase loader levels inner) :
    ∀ (bound : List Token) {before : List (Member DataType)} {us : List Token},
      (∀ qs, Begins (us ++ Phrase.membersTokens qs)) → Viable ts us (moreMembers inner before bound)
  | [], _, _, _ => (Harmless.pure _).viable
  | _ :: bound, before, us, h => by
    refine acceptElse (bind (member hi fun n p => ?_) fun c m c' hm => ?_)
      (Harmless.pure _).viable
    · exact (h [⟨n, p, none⟩]).shorter (by simp [Phrase.membersTokens])
    · obtain ⟨q, _, -, -, -, hq⟩ := member_passes hp hm
      exact ⟨_, _, hq, moreMembers hi hp bound fun qs => begins_member h⟩

theorem membersAfter (hi : ViableType ts inner)
    (hp : ReadsPhrase loader levels inner) (before : List (Member DataType))
    (h : ∀ qs, Begins (us ++ Phrase.membersTokens qs)) :
    Viable ts us (membersAfter inner before) :=
  fun c hc => moreMembers hi hp c.rest h hc

theorem openRow (h : ∀ round : Bool,
    Begins (us ++ [.symbol (if round then .openParen else .openAngle)])) : Viable ts us openRow :=
  acceptElse (Harmless.pure _).viable
    (acceptElse (Harmless.pure _).viable (refuse_of_goesOn (h true).goesOn))

theorem fields (hi : ViableType ts inner)
    (hp : ReadsPhrase loader levels inner) (close : Symbol)
    (h : ∀ qs, Begins (us ++ (Phrase.membersTokens qs).drop 1)) :
    Viable ts us (fields inner close) := by
  refine look fun o => ?_
  split_ifs
  · exact (Harmless.pure _).viable
  · refine bind (member hi fun n p => ?_) fun c m c' hm => ?_
    · exact (h [⟨n, p, none⟩]).shorter (by simp [Phrase.membersTokens])
    · obtain ⟨q, _, -, -, -, hq⟩ := member_passes hp hm
      refine ⟨_, _, hq, membersAfter hi hp _ fun qs => ?_⟩
      simpa [Phrase.membersTokens] using h (q :: qs)

theorem row (hi : ViableType ts inner)
    (hp : ReadsPhrase loader levels inner)
    (h : ∀ (round : Bool) qs, Begins (us ++ .symbol (if round then .openParen else .openAngle) ::
      ((Phrase.membersTokens qs).drop 1 ++
        [.symbol (if round then .closeParen else .closeAngle)]))) :
    Viable ts us (row inner start) := by
  refine bind (openRow fun round => (h round []).shorter (by simp)) fun c close c' ho => ?_
  obtain ⟨round, rfl, hopen⟩ := openRow_passes ho
  refine ⟨_, _, hopen, bind (fields hi hp _ fun qs => ?_) fun c ms c' hms => ?_⟩
  · exact (h round qs).shorter (by simp)
  · obtain ⟨qs, -, -, hqs⟩ := fields_passes hp hms
    exact ⟨_, _, hqs, (expectSymbol (by simpa using h round qs)).andThen fun _ => .make _ _⟩

theorem structured (hi : ViableType ts inner)
    (hp : ReadsPhrase loader levels inner)
    (h : ∀ className qs, Begins (us ++ .symbol .openAngle :: .string className ::
      (Phrase.membersTokens qs ++ [.symbol .closeAngle]))) :
    Viable ts us (structured inner start) := by
  refine symbol ((h "" []).shorter (by simp)) (string ((h "" []).shorter (by simp))
    fun className => bind (membersAfter hi hp _ fun qs => ?_) fun c ms c' hms => ?_)
  · exact (h className qs).shorter (by simp)
  · obtain ⟨qs, _, -, -, -, hqs⟩ := moreMembers_passes hp _ hms
    exact ⟨_, _, hqs, (expectSymbol (by simpa using h className qs)).andThen fun _ => .make _ _⟩

theorem begins_behind {vs : List Token} (h : Begins (us ++ t :: vs)) :
    Begins (us ++ [t] ++ vs) := by
  rwa [List.append_assoc, List.singleton_append]

/-- What follows a keyword in front of which any base may stand. -/
theorem afterKeyword (hi : ViableType ts inner) (hp : ReadsPhrase loader levels inner) (k : Keyword)
    (h : ∀ b, Begins (us ++ Phrase.baseTokens b)) :
    Viable ts (us ++ [.keyword k]) (afterKeyword loader inner us.length k) := by
  have atom : ∀ a : AtomPhrase, Begins (us ++ a.tokens) := fun a => h (.atom a)
  cases k with
  | char => exact sized _ fun d => begins_behind (atom (.sized .char d))
  | varchar => exact sized _ fun d => begins_behind (atom (.sized .varchar d))
  | binary => exact sized _ fun d => begins_behind (atom (.sized .binary d))
  | varbinary => exact sized _ fun d => begins_behind (atom (.sized .varbinary d))
  | decimal => exact decimal fun p d => begins_behind (atom (.decimalOf .decimal p d))
  | dec => exact decimal fun p d => begins_behind (atom (.decimalOf .dec p d))
  | numeric => exact decimal fun p d => begins_behind (atom (.decimalOf .numeric p d))
  | double => exact ((Harmless.accept _).bind fun _ => .make _ _).viable
  | time => exact time fun d b => begins_behind (atom (.time d b))
  | timestamp => exact timestamp fun d z => begins_behind (atom (.timestamp d z))
  | timestampLtz =>
    exact localZonedTimestamp fun d => begins_behind (atom (.localZonedTimestamp d))
  | interval => exact interval atom
  | array => exact collection hi hp _ fun p => begins_behind (h (.collection .array p))
  | multiset => exact collection hi hp _ fun p => begins_behind (h (.collection .multiset p))
  | map => exact map hi hp fun p q => begins_behind (h (.map p q))
  | row => exact row hi hp fun round qs => begins_behind (h (.row round qs))
  | structured =>
    exact structured hi hp fun className qs => begins_behind (h (.structured className qs))
  | raw => exact raw loader fun a b => begins_behind (atom (.raw a b))
  | legacy => exact legacy loader fun a b => begins_behind (atom (.legacy a b))
  | string | bytes | boolean | tinyint | smallint | int | integer | bigint | float | date | null
  | descriptor => exact (Harmless.make _ _).viable
  | _ =>
    -- the keyword is passed by now, but it is the one at fault, so only what is before it counts
    intro c hc _
    refine ⟨?_, ?_, rfl⟩
    · rw [hc.rest]
      simp only [List.length_append, List.length_singleton]
      omega
    · rw [hc.rest, List.append_assoc, List.take_left]
      exact (atom .integer).of_append

theorem base (hi : ViableType ts inner) (hp : ReadsPhrase loader levels inner)
    (h : ∀ b, Begins (us ++ Phrase.baseTokens b)) : Viable ts us (base loader inner) := by
  have hgoesOn : GoesOn us := (h (.atom .integer)).goesOn
  intro c hc
  rcases run_base_cases c with ⟨k, ht, hrun⟩ | ⟨_, -, hrun⟩ | hrun <;> rw [hrun]
  · rw [hc.passed]
    exact afterKeyword hi hp k h (hc.passes (.single ht))
  · exact unresolved (fun a => h (.atom a)) hc
  · exact refuse_of_goesOn hgoesOn hc

end Inside

theorem nested {x : Reading DataType} (hx : Viable ts us x) : Viable ts us (nested x) :=
  Leads.nested (fun _ hc => ⟨hc.rest, hc.passed⟩) hx fun _ _ _ => trivial

theorem wrapped (limit : Nat) : ∀ (levels : Nat) {us : List Token} (t : DataType),
    (∀ ws, Begins (us ++ wrapperTokens ws)) → Viable ts us (wrapped limit levels t)
  | 0, us, t, _ => by
    refine (Harmless.wrapper?.bind fun w => ?_).viable
    cases w with
    | some w => exact .tooDeep _ _
    | none => exact .pure t
  | levels + 1, us, t, h => by
    rw [wrapped_succ]
    refine bind Harmless.wrapper?.viable fun c w c' hw => ⟨_, 0, wrapper?_passes hw, ?_⟩
    cases w with
    | some w =>
      refine nested (bind (nullability _ fun n => ?_) fun c u c' hu => ?_)
      · simpa [wrapperTokens] using h [(w.1, n)]
      · obtain ⟨n, -, hn⟩ := nullability_passes hu
        refine ⟨_, 0, hn, wrapped limit levels u fun ws => ?_⟩
        simpa [wrapperTokens] using h ((w.1, n) :: ws)
    | none => exact (Harmless.pure t).viable

theorem typeExpression (loader : Loader) (limit : Nat) :
    ∀ levels : Nat, ViableType ts (typeExpression loader limit levels)
  | 0, us, h => fun c hc => Harmless.tooDeep limit c.passed trivial
  | levels + 1, us, h => by
    have hbase : Viable ts us (Reading.base loader (Reading.typeExpression loader limit levels)) :=
      base (typeExpression loader limit levels) (typeExpression_passes loader limit levels)
        fun b => by
          simpa [Phrase.tokens, Nullability.tokens, wrapperTokens] using h ⟨b, .unmarked, []⟩
    intro c hc
    rw [typeExpression_succ, run_bind_of_ok (run_begin c)]
    refine nested (bind hbase fun c t c' ht => ?_) ⟨hc.rest, hc.passed⟩
    obtain ⟨b, -, -, hb⟩ := base_passes (typeExpression_passes loader limit levels) ht
    refine ⟨_, _, hb, bind (nullability t fun n => ?_) fun c u c' hu => ?_⟩
    · simpa [Phrase.tokens, wrapperTokens] using h ⟨b, n, []⟩
    · obtain ⟨n, -, hn⟩ := nullability_passes hu
      exact ⟨_, 0, hn, wrapped limit levels u fun ws => by simpa [Phrase.tokens] using h ⟨b, n, ws⟩⟩

theorem ending (t : DataType) (h : GoesOn us) : Viable ts us (ending t) := by
  refine look fun o => ?_
  split
  · exact (Harmless.pure t).viable
  · exact refuse_of_goesOn h

end Viable

/-- Behind any phrase, there may be a collection of what it describes. -/
theorem goesOn_tokens (p : Phrase) : GoesOn p.tokens := by
  obtain ⟨b, n, ws⟩ := p
  refine ⟨.keyword .array, begins_iff.2 ⟨[], ⟨b, n, ws ++ [(.array, .unmarked)]⟩, ?_⟩⟩
  simp [Phrase.tokens, wrapperTokens, Nullability.tokens, Collection.keyword]

/-- What a fault of a run tells of its tokens is so. -/
theorem runOn_viable {loader : Loader} {limit : Nat} {f : Fault} {c : Cursor}
    (h : runOn loader limit ts = .error f c) : f.Blames ts c := by
  have hviable : Viable ts [] (typeExpression loader limit limit >>= ending) := by
    refine .bind (.typeExpression loader limit limit fun p => ?_) fun c t c' ht => ?_
    · exact begins_iff.2 ⟨[], p, by simp⟩
    · obtain ⟨p, -, -, hp⟩ := typeExpression_passes loader limit limit ht
      exact ⟨_, _, hp, .ending t (goesOn_tokens p)⟩
  exact hviable.error ⟨rfl, rfl⟩ h

end Reading

end SqlTypes
