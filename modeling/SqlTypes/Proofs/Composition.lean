import SqlTypes.Proofs.PhraseOutcome

/-!
# How readings are put together

All readings of what stands inside a type are put together from the next token, the number of a
token, passing a token, the reading of a type inside, and faults. `Reading.Alike` says of two
readings that they are put together in the same way, of types inside that may be read differently
and token numbers that may differ. A fact about runs is proved by induction on it: once for every
part, and so for all that is made of them. What every part preserves, the whole preserves
(`Reading.Alike.leads`).

What a type expression does with its levels and what a loader answers are no such parts. What is
preserved there as well, all descriptions preserve (`Reading.Kept.typeExpression`).
-/

namespace SqlTypes

/-- Problems that the tokens of a type alone decide, without limits and loaders. -/
def Problem.OfTokens : Problem → Prop
  | .unexpectedEnd | .unexpectedToken _ | .legacyRestore .. | .nestingTooDeep _ => False
  | _ => True

/-- The same problem at corresponding places. -/
inductive Fault.Alike (N : Nat → Nat → Prop) : Fault → Fault → Prop
  | token {m n : Nat} {p : Problem} : N m n → p.OfTokens →
      Alike N (.problem (.token m) p) (.problem (.token n) p)
  | endOfInput : Alike N (.problem .endOfInput .unexpectedEnd) (.problem .endOfInput .unexpectedEnd)

/-- The same value of corresponding tokens. -/
structure Numeral.Alike (N : Nat → Nat → Prop) (m n : Numeral) : Prop where
  value : m.value = n.value
  origin : N m.origin n.origin

/-- Whether types stand inside the type that a keyword begins. -/
def Keyword.hasInside : Keyword → Bool
  | .array | .multiset | .map | .row | .structured => true
  | _ => false

/-- Whether a loader is asked for the type that a keyword begins. -/
def Keyword.isOutside : Keyword → Bool
  | .raw | .legacy => true
  | _ => false

namespace Reading

variable (N : Nat → Nat → Prop) (F : Fault → Fault → Prop) (inner inner' : Reading DataType) in
/-- Two readings are put together in the same way, and `V` says what their values have in common.
Token numbers correspond as `N` says. Faults of what is outside of the tokens may be those that `F`
relates. -/
inductive Alike : {α β : Type} → (α → β → Prop) → Reading α → Reading β → Prop
  | pure {α β : Type} {V : α → β → Prop} {a : α} {b : β} : V a b → Alike V (pure a) (pure b)
  | bind {α β γ δ : Type} {V : α → β → Prop} {W : γ → δ → Prop} {x : Reading α} {y : Reading β}
      {f : α → Reading γ} {g : β → Reading δ} :
      Alike V x y → (∀ a b, V a b → Alike W (f a) (g b)) → Alike W (x >>= f) (y >>= g)
  | peek : Alike Eq peek peek
  | here : Alike N here here
  | advance : Alike Eq advance advance
  /-- All the tokens that are left. -/
  | rest {α β : Type} {V : α → β → Prop} {f : List Token → Reading α} {g : List Token → Reading β} :
      (∀ ts, Alike V (f ts) (g ts)) →
        Alike V (do let c ← get; f c.rest) (do let c ← get; g c.rest)
  | fault {α β : Type} {V : α → β → Prop} {e e' : Fault} : Fault.Alike N e e' →
      Alike V (throw e) (throw e')
  | outside {α β : Type} {V : α → β → Prop} {e e' : Fault} : F e e' →
      Alike V (throw e) (throw e')
  | inner : Alike Eq inner inner'

variable {N : Nat → Nat → Prop} {F : Fault → Fault → Prop} {inner inner' : Reading DataType}
  {α β γ δ : Type} {V : α → β → Prop} {W : γ → δ → Prop} {m n : Nat}

namespace Alike

/-- One reading after another, with the same value before. -/
theorem bindEq {x y : Reading α} {f : α → Reading γ} {g : α → Reading δ}
    (hx : Alike N F inner inner' Eq x y) (hf : ∀ a, Alike N F inner inner' W (f a) (g a)) :
    Alike N F inner inner' W (x >>= f) (y >>= g) :=
  .bind hx fun a _ h => h ▸ hf a

theorem pureEq (a : α) : Alike N F inner inner' Eq (Pure.pure a) (Pure.pure a) :=
  .pure rfl

theorem failAt {p : Problem} (h : N m n) (hp : p.OfTokens) :
    Alike N F inner inner' V (failAt (.token m) p) (failAt (.token n) p) :=
  .fault (.token h hp)

/-- Stops at the next token in any way. -/
theorem refuseWith {p : Token → Problem} (hp : ∀ m n t, N m n → Alike N F inner inner' V
      (Reading.failAt (.token m) (p t)) (Reading.failAt (.token n) (p t))) :
    Alike N F inner inner' V (refuse p) (refuse p) := by
  refine .bindEq .peek fun t => ?_
  rcases t with _ | t
  · exact .fault .endOfInput
  · cases t with
    | unterminated => exact .fault .endOfInput
    | stray c => exact .bind .here fun _ _ h => .failAt h trivial
    | _ => exact .bind .here fun _ _ h => hp _ _ _ h

theorem refuse {p : Token → Problem} (hp : ∀ t, (p t).OfTokens) :
    Alike N F inner inner' V (refuse p) (refuse p) :=
  .refuseWith fun _ _ t h => .failAt h (hp t)

theorem orFailAt (h : N m n) (e : Except BadParameter α) :
    Alike N F inner inner' Eq (orFailAt m e) (orFailAt n e) := by
  cases e with
  | ok a => exact .pureEq a
  | error b => exact .failAt h trivial

theorem accept (t : Token) : Alike N F inner inner' Eq (accept t) (accept t) := by
  refine .bindEq .peek fun u => ?_
  split_ifs
  · exact .bindEq .advance fun _ => .pureEq true
  · exact .pureEq false

theorem acceptKeyword (k : Keyword) :
    Alike N F inner inner' Eq (acceptKeyword k) (acceptKeyword k) :=
  .accept _

/-- One reading behind `t`, and another one if `t` does not come next. -/
theorem acceptElse {t : Token} {x x' : Reading α} {y y' : Reading β}
    (hx : Alike N F inner inner' V x y) (hx' : Alike N F inner inner' V x' y') :
    Alike N F inner inner' V (do if ← Reading.accept t then x else x')
      (do if ← Reading.accept t then y else y') := by
  refine .bindEq (.accept t) fun b => ?_
  cases b with
  | true => exact hx
  | false => exact hx'

theorem expectSymbol (s : Symbol) :
    Alike N F inner inner' Eq (expectSymbol s) (expectSymbol s) :=
  .acceptElse (.pureEq ()) (.refuse fun _ => trivial)

theorem expectKeyword (k : Keyword) :
    Alike N F inner inner' Eq (expectKeyword k) (expectKeyword k) :=
  .acceptElse (.pureEq ()) (.refuse fun _ => trivial)

theorem string? : Alike N F inner inner' Eq string? string? := by
  refine .bindEq .peek fun t => ?_
  split
  · exact .bindEq .advance fun _ => .pureEq _
  · exact .pureEq none

theorem string : Alike N F inner inner' Eq string string := by
  refine .bindEq .string? fun s => ?_
  cases s with
  | some content => exact .pureEq content
  | none => exact .refuse fun _ => trivial

theorem name : Alike N F inner inner' Eq name name := by
  refine .bindEq .peek fun t => ?_
  split
  · exact .bindEq .advance fun _ => .pureEq _
  · exact .bindEq .advance fun _ => .pureEq _
  · exact .refuse fun _ => trivial

theorem integer : Alike N F inner inner' (Numeral.Alike N) integer integer := by
  refine .bindEq .peek fun t => ?_
  split
  · refine .bind .here fun m n h => ?_
    split
    · exact .bindEq .advance fun _ => .pure ⟨rfl, h⟩
    · exact .failAt h trivial
  · exact .refuse fun _ => trivial

theorem parameterOr {o o' : Numeral} (h : o.Alike N o') :
    Alike N F inner inner' (Numeral.Alike N) (parameterOr o) (parameterOr o') := by
  refine .acceptElse ?_ (.pure h)
  refine .bind .integer fun i j hij => ?_
  refine .bindEq (.expectSymbol _) fun _ => ?_
  exact .pure hij

theorem make (h : N m n) (s : Shape DataType) :
    Alike N F inner inner' Eq (make m s) (make n s) :=
  .orFailAt h _

theorem withParameter {ε : Type} {x : Reading ε} (h : N m n) (p : Parameter)
    (hx : Alike N F inner inner' Eq x x) (atom : Nat → ε → Atom) :
    Alike N F inner inner' Eq (withParameter m p x atom) (withParameter n p x atom) := by
  refine .bind (.parameterOr ⟨rfl, h⟩) fun i j hij => ?_
  refine .bindEq hx fun a => ?_
  rw [hij.value]
  exact .make hij.origin _

theorem sized (h : N m n) (s : Sized) : Alike N F inner inner' Eq (sized m s) (sized n s) :=
  .withParameter h _ (.pureEq ()) _

theorem scale : Alike N F inner inner' Eq scale scale := by
  refine .acceptElse ?_ (.pureEq _)
  refine .bind .integer fun i j hij => ?_
  exact .pure hij.value

theorem decimal (h : N m n) : Alike N F inner inner' Eq (decimal m) (decimal n) := by
  refine .acceptElse ?_ (.make h _)
  refine .bind .integer fun i j hij => ?_
  refine .bindEq .scale fun scale => ?_
  refine .bindEq (.expectSymbol _) fun _ => ?_
  rw [hij.value]
  exact .make hij.origin _

theorem timeZone : Alike N F inner inner' Eq timeZone timeZone := by
  refine .bindEq (.expectKeyword _) fun _ => ?_
  exact .expectKeyword _

theorem withoutZone : Alike N F inner inner' Eq withoutZone withoutZone :=
  .acceptElse .timeZone (.pureEq ())

theorem time (h : N m n) : Alike N F inner inner' Eq (time m) (time n) :=
  .withParameter h _ .withoutZone _

theorem withZone : Alike N F inner inner' Eq withZone withZone := by
  refine .acceptElse ?_ (.pureEq _)
  refine .bindEq (.acceptKeyword _) fun isLocal => ?_
  refine .bindEq .timeZone fun _ => ?_
  exact .pureEq _

theorem zone : Alike N F inner inner' Eq zone zone := by
  refine .acceptElse ?_ .withZone
  refine .bindEq .timeZone fun _ => ?_
  exact .pureEq _

theorem timestamp (h : N m n) : Alike N F inner inner' Eq (timestamp m) (timestamp n) :=
  .withParameter h _ .zone _

theorem localZonedTimestamp (h : N m n) :
    Alike N F inner inner' Eq (localZonedTimestamp m) (localZonedTimestamp n) :=
  .withParameter h _ (.pureEq ()) _

theorem resolutionInvalid :
    Alike N F inner inner' V resolutionInvalid resolutionInvalid :=
  .refuse fun _ => trivial

theorem unit : Alike N F inner inner' Eq unit unit := by
  refine .bindEq .peek fun t => ?_
  split
  · exact .bindEq .advance fun _ => .pureEq _
  · exact .resolutionInvalid

theorem endOfRange : Alike N F inner inner' Eq endOfRange endOfRange := by
  refine .bindEq .peek fun t => ?_
  split_ifs
  · exact .resolutionInvalid
  · exact .pureEq ()

theorem toMonth : Alike N F inner inner' Eq toMonth toMonth :=
  .acceptElse (.pureEq _) .resolutionInvalid

theorem yearRange : Alike N F inner inner' Eq yearRange yearRange :=
  .acceptElse .toMonth (.pureEq _)

theorem fromYear (h : N m n) : Alike N F inner inner' Eq (fromYear m) (fromYear n) := by
  refine .bind (.parameterOr ⟨rfl, h⟩) fun i j hij => ?_
  refine .bindEq .yearRange fun range => ?_
  refine .bindEq .endOfRange fun _ => ?_
  rw [hij.value]
  exact .make hij.origin _

theorem fromMonth (h : N m n) : Alike N F inner inner' Eq (fromMonth m) (fromMonth n) := by
  refine .bindEq .endOfRange fun _ => ?_
  exact .make h _

theorem rangeFrom (first : TimeUnit) :
    Alike N F inner inner' Eq (rangeFrom first) (rangeFrom first) := by
  refine .bindEq .peek fun t => ?_
  split
  · exact .bindEq .advance fun _ => .pureEq _
  · exact .resolutionInvalid

theorem dayTimeRange (single : DayTime) :
    Alike N F inner inner' Eq (dayTimeRange single) (dayTimeRange single) :=
  .acceptElse (.rangeFrom _) (.pureEq _)

theorem fraction (h : N m n) (range : DayTime) :
    Alike N F inner inner' (Numeral.Alike N) (fraction m range) (fraction n range) := by
  unfold Reading.fraction
  split_ifs
  · exact .parameterOr ⟨rfl, h⟩
  · exact .pure ⟨rfl, h⟩

theorem fromUnit (h : N m n) (single : DayTime) {days days' : Numeral} (hd : days.Alike N days') :
    Alike N F inner inner' Eq (fromUnit m single days) (fromUnit n single days') := by
  refine .bindEq (.dayTimeRange _) fun range => ?_
  refine .bind (.fraction h range) fun i j hij => ?_
  refine .bindEq .endOfRange fun _ => ?_
  rw [hd.value, hij.value]
  refine .make ?_ _
  split_ifs
  · exact hij.origin
  · exact hd.origin

theorem interval (h : N m n) : Alike N F inner inner' Eq (interval m) (interval n) := by
  have omitted : Numeral.Alike N ⟨Parameter.dayPrecision.omitted, m⟩
    ⟨Parameter.dayPrecision.omitted, n⟩ := ⟨rfl, h⟩
  refine .bindEq .unit fun u => ?_
  cases u with
  | year => exact .fromYear h
  | month => exact .fromMonth h
  | day =>
    refine .bind (.parameterOr omitted) fun days days' hdays => ?_
    exact .fromUnit h _ hdays
  | hour | minute | second => exact .fromUnit h _ omitted

theorem moreSegments : ∀ k : Nat,
    Alike N F inner inner' Eq (moreSegments k) (moreSegments k)
  | 0 => .pureEq _
  | k + 1 => by
    refine .acceptElse ?_ (.pureEq _)
    refine .bindEq .name fun segment => ?_
    refine .bindEq (moreSegments k) fun segments => ?_
    exact .pureEq _

theorem unresolved : Alike N F inner inner' Eq unresolved unresolved := by
  refine .bind .here fun m n h => ?_
  refine .bindEq .name fun first => ?_
  refine .bindEq (.moreSegments _) fun others => ?_
  refine .bindEq (.orFailAt h _) fun name => ?_
  exact .make h _

theorem twoStrings : Alike N F inner inner' Eq twoStrings twoStrings := by
  refine .bindEq (.expectSymbol _) fun _ => ?_
  refine .bindEq .string fun first => ?_
  refine .bindEq (.expectSymbol _) fun _ => ?_
  refine .bindEq .string fun second => ?_
  refine .bindEq (.expectSymbol _) fun _ => ?_
  exact .pureEq _

theorem raw {loader : Loader} (h : N m n)
    (hF : ∀ className snapshot e, loader.restore className snapshot = .error e →
      F (.rawRestore className snapshot e) (.rawRestore className snapshot e)) :
    Alike N F inner inner' Eq (raw loader m) (raw loader n) := by
  refine .bindEq .twoStrings fun ⟨className, snapshot⟩ => ?_
  dsimp only
  split
  · exact .make h _
  · exact .outside (hF _ _ _ ‹_›)

theorem legacy {loader : Loader}
    (hF : ∀ family payload cause, F (.problem (.token m) (.legacyRestore family payload cause))
      (.problem (.token n) (.legacyRestore family payload cause))) :
    Alike N F inner inner' Eq (legacy loader m) (legacy loader n) := by
  refine .bindEq .twoStrings fun ⟨family, payload⟩ => ?_
  dsimp only
  split
  · exact .outside (hF _ _ _)
  · split
    · exact .pureEq _
    · exact .outside (hF _ _ _)

/-! ## Types with types inside -/

theorem nullability (t : DataType) :
    Alike N F inner inner' Eq (nullability t) (nullability t) := by
  refine .bind .here fun m n h => .acceptElse ?_ ?_
  · refine .bindEq (.expectKeyword _) fun _ => ?_
    exact .orFailAt h _
  · refine .bindEq (.acceptKeyword _) fun _ => ?_
    exact .pureEq t

theorem collection (h : N m n) (k : Collection) :
    Alike N F inner inner' Eq (collection inner m k) (collection inner' n k) := by
  refine .bindEq (.expectSymbol _) fun _ => ?_
  refine .bindEq .inner fun element => ?_
  refine .bindEq (.expectSymbol _) fun _ => ?_
  exact .make h _

theorem map (h : N m n) : Alike N F inner inner' Eq (map inner m) (map inner' n) := by
  refine .bindEq (.expectSymbol _) fun _ => ?_
  refine .bindEq .inner fun key => ?_
  refine .bindEq (.expectSymbol _) fun _ => ?_
  refine .bindEq .inner fun value => ?_
  refine .bindEq (.expectSymbol _) fun _ => ?_
  exact .make h _

theorem member : Alike N F inner inner' Eq (member inner) (member inner') := by
  refine .bindEq .name fun name => ?_
  refine .bindEq .inner fun type => ?_
  refine .bindEq .string? fun description => ?_
  exact .pureEq _

theorem moreMembers : ∀ (bound : List Token) (before : List (Member DataType)),
    Alike N F inner inner' Eq (moreMembers inner before bound) (moreMembers inner' before bound)
  | [], _ => .pureEq _
  | _ :: bound, before => by
    refine .acceptElse ?_ (.pureEq _)
    refine .bindEq .member fun m => ?_
    exact moreMembers bound (m :: before)

theorem membersAfter (before : List (Member DataType)) :
    Alike N F inner inner' Eq (membersAfter inner before) (membersAfter inner' before) :=
  .rest fun bound => .moreMembers bound before

theorem openRound : Alike N F inner inner' Eq openRound openRound :=
  .acceptElse (.pureEq _) (.refuse fun _ => trivial)

theorem openRow : Alike N F inner inner' Eq openRow openRow :=
  .acceptElse (.pureEq _) .openRound

theorem fields (close : Symbol) :
    Alike N F inner inner' Eq (fields inner close) (fields inner' close) := by
  refine .bindEq .peek fun t => ?_
  split_ifs
  · exact .pureEq _
  · refine .bindEq .member fun first => ?_
    exact .membersAfter _

theorem row (h : N m n) : Alike N F inner inner' Eq (row inner m) (row inner' n) := by
  refine .bindEq .openRow fun close => ?_
  refine .bindEq (.fields close) fun fields => ?_
  refine .bindEq (.expectSymbol close) fun _ => ?_
  exact .make h _

theorem structured (h : N m n) :
    Alike N F inner inner' Eq (structured inner m) (structured inner' n) := by
  refine .bindEq (.expectSymbol _) fun _ => ?_
  refine .bindEq .string fun className => ?_
  refine .bindEq (.membersAfter _) fun attributes => ?_
  refine .bindEq (.expectSymbol _) fun _ => ?_
  exact .make h _

/-- Whatever keyword begins a type without types inside that no loader is asked for. -/
theorem atomKeyword {loader loader' : Loader} {x y : Reading DataType} (h : N m n) {k : Keyword}
    (hinside : k.hasInside = false) (houtside : k.isOutside = false) :
    Alike N F inner inner' Eq (Reading.afterKeyword loader x m k)
      (Reading.afterKeyword loader' y n k) := by
  cases k with
  | char | varchar | binary | varbinary => exact .sized h _
  | decimal | dec | numeric => exact .decimal h
  | double =>
    refine .bindEq (.acceptKeyword _) fun _ => ?_
    exact .make h _
  | time => exact .time h
  | timestamp => exact .timestamp h
  | timestampLtz => exact .localZonedTimestamp h
  | interval => exact .interval h
  | array | multiset | map | row | structured => cases hinside
  | raw | legacy => cases houtside
  | string | bytes | boolean | tinyint | smallint | int | integer | bigint | float | date | null
  | descriptor => exact .make h _
  | _ => exact .failAt h trivial

/-- Whatever keyword begins a type. -/
theorem afterKeyword {loader loader' : Loader} (h : N m n) {k : Keyword}
    (hraw : k = .raw → Alike N F inner inner' Eq (Reading.raw loader m) (Reading.raw loader' n))
    (hlegacy : k = .legacy →
      Alike N F inner inner' Eq (Reading.legacy loader m) (Reading.legacy loader' n)) :
    Alike N F inner inner' Eq (afterKeyword loader inner m k)
      (afterKeyword loader' inner' n k) := by
  cases k with
  | array | multiset => exact .collection h _
  | map => exact .map h
  | row => exact .row h
  | structured => exact .structured h
  | raw => exact hraw rfl
  | legacy => exact hlegacy rfl
  | _ => exact .atomKeyword h rfl rfl

/-- What a type expression starts with, where both ask the same loader. -/
theorem base {loader : Loader}
    (hraw : ∀ className snapshot e, loader.restore className snapshot = .error e →
      F (.rawRestore className snapshot e) (.rawRestore className snapshot e))
    (hlegacy : ∀ m n family payload cause, N m n →
      F (.problem (.token m) (.legacyRestore family payload cause))
        (.problem (.token n) (.legacyRestore family payload cause))) :
    Alike N F inner inner' Eq (base loader inner) (base loader inner') := by
  refine .bindEq .peek fun t => ?_
  rcases t with _ | t
  · exact .refuse fun _ => trivial
  cases t with
  | keyword k =>
    refine .bind .here fun m n h => ?_
    refine .bindEq .advance fun _ => .afterKeyword h (fun _ => ?_) fun _ => ?_
    · exact .raw h hraw
    · exact .legacy fun family payload cause => hlegacy m n family payload cause h
  | word | quoted => exact .unresolved
  | _ => exact .refuse fun _ => trivial

end Alike

/-- Nothing may follow. -/
def ending (t : DataType) : Reading DataType := do
  match ← peek with
  | none => return t
  | some _ => refuse .unexpectedToken

theorem Alike.ending (hF : ∀ m n t, N m n →
      F (.problem (.token m) (.unexpectedToken t)) (.problem (.token n) (.unexpectedToken t)))
    (t : DataType) : Alike N F inner inner' Eq (ending t) (ending t) := by
  refine .bindEq .peek fun u => ?_
  cases u with
  | none => exact .pureEq t
  | some u => exact .refuseWith fun _ _ t h => .outside (hF _ _ t h)

theorem run_description {loader : Loader} {limit : Nat} (c : Cursor) :
    (description loader limit).run c =
      (typeExpression loader limit (limit - c.depth) >>= ending).run c := rfl

/-- Reads no type: for readings without types inside. -/
def nothing : Reading DataType :=
  failAt .endOfInput .unexpectedEnd

/-- From a cursor as in `P`, a run of `x` ends with a value and a cursor as in `Q`, or in a fault as
in `E`. -/
def Leads (P : Cursor → Prop) (x : Reading α) (Q : α → Cursor → Prop)
    (E : Fault → Cursor → Prop) : Prop :=
  ∀ ⦃c⦄, P c →
    match x.run c with
    | .ok a c' => Q a c'
    | .error f c' => E f c'

section Leads

variable {P I : Cursor → Prop} {Q Q' : α → Cursor → Prop} {R : β → Cursor → Prop}
  {E : Fault → Cursor → Prop} {x : Reading α} {f : α → Reading β}

namespace Leads

theorem pure {a : α} (h : ∀ c, P c → Q a c) : Leads P (pure a) Q E :=
  fun c hc => h c hc

theorem bind (hx : Leads P x Q E) (hf : ∀ a, Leads (Q a) (f a) R E) : Leads P (x >>= f) R E := by
  intro c hc
  have hx := hx hc
  rw [EStateM.run_bind]
  rcases hr : x.run c with ⟨a, c₁⟩ | ⟨e, c₁⟩ <;> rw [hr] at hx
  · exact hf a hx
  · exact hx

theorem mono (hx : Leads P x Q E) (hQ : ∀ a c, Q a c → Q' a c) : Leads P x Q' E := by
  intro c hc
  have hx := hx hc
  rcases hr : x.run c with ⟨a, c₁⟩ | ⟨e, c₁⟩ <;> rw [hr] at hx
  · exact hQ a c₁ hx
  · exact hx

theorem error {c c' : Cursor} {e : Fault} (hx : Leads P x Q E) (hc : P c)
    (h : x.run c = .error e c') : E e c' := by
  have hx := hx hc
  rwa [h] at hx

end Leads

/-- There is a token to pass, or nothing happens. -/
theorem advance_cases (c : Cursor) :
    (∃ t, c.rest.head? = some t ∧ advance.run c = .ok () c.skip) ∨ advance.run c = .ok () c := by
  rcases ht : c.rest.head? with _ | t
  · exact .inr (by simp [advance, List.head?_eq_none_iff.1 ht])
  · exact .inl ⟨t, rfl, run_advance ht⟩

/-- What passing a token and reading a type inside preserve, and every fault allows, is preserved by
all that is put together from these. -/
theorem Alike.leads {V : α → β → Prop} {y : Reading β} (h : Alike N F inner inner' V x y)
    (hskip : ∀ c t, I c → c.rest.head? = some t → I c.skip)
    (hhere : ∀ c, I c → ∃ n, N c.passed n)
    (hfault : ∀ c e e', I c → Fault.Alike N e e' ∨ F e e' → E e c)
    (hinner : Leads I inner (fun _ => I) E) : Leads I x (fun a c => I c ∧ ∃ b, V a b) E := by
  induction h with
  | pure hV => exact .pure fun c hc => ⟨hc, _, hV⟩
  | bind _ _ ihx ihf => exact ihx.bind fun a _ ⟨hc, b, hV⟩ => ihf a b hV hc
  | peek => exact fun c hc => ⟨hc, _, rfl⟩
  | here => exact fun c hc => ⟨hc, hhere c hc⟩
  | advance =>
    intro c hc
    rcases advance_cases c with ⟨t, ht, hrun⟩ | hrun <;> rw [hrun]
    · exact ⟨hskip c t hc ht, _, rfl⟩
    · exact ⟨hc, _, rfl⟩
  | rest _ ih => exact fun c hc => ih c.rest hc
  | fault h => exact fun c hc => hfault c _ _ hc (.inl h)
  | outside h => exact fun c hc => hfault c _ _ hc (.inr h)
  | inner => exact hinner.mono fun t c hc => ⟨hc, t, rfl⟩

theorem Leads.nested {P' : Cursor → Prop} (henter : ∀ c, P c → P' c.entered)
    (hx : Leads P' x Q' E) (hleave : ∀ a c, Q' a c → Q a c.left) : Leads P (nested x) Q E := by
  have hend : ∀ a, Leads (Q' a) (do leave; return a) Q E := fun a c hc => hleave a c hc
  intro c hc
  rw [Reading.nested, run_bind_of_ok (run_enter c)]
  exact hx.bind hend (henter c hc)

end Leads

/-- What is preserved from the start of a type to its end, by the base and the nullability too. A
type too deep may be noticed at any token before. -/
structure Kept (loader : Loader) (I : Cursor → Prop) (E : Fault → Cursor → Prop) : Prop where
  skip : ∀ c t, I c → c.rest.head? = some t → I c.skip
  started : ∀ c, I c → I c.started
  entered : ∀ c, I c → I c.entered
  left : ∀ c, I c → I c.left
  tooDeep : ∀ (limit : Nat) c c', I c → I c' →
    E (.problem (.token c.passed) (.nestingTooDeep limit)) c'.entered
  base : ∀ inner, Leads I inner (fun _ => I) E → Leads I (base loader inner) (fun _ => I) E
  nullability : ∀ t, Leads I (nullability t) (fun _ => I) E

namespace Kept

variable {loader : Loader} {I : Cursor → Prop} {E : Fault → Cursor → Prop}

theorem wrapped (h : Kept loader I E) (limit : Nat) : ∀ (levels : Nat) (t : DataType),
    Leads I (wrapped limit levels t) (fun _ => I) E
  | 0, u => by
    intro c hc
    rcases run_wrapper?_cases c with ⟨k, t, ht, hw⟩ | hw <;>
      rw [Reading.wrapped, run_bind_of_ok hw]
    · exact h.tooDeep limit c c.skip hc (h.skip c t hc ht)
    · exact hc
  | levels + 1, u => by
    intro c hc
    rcases run_wrapper?_cases c with ⟨k, t, ht, hw⟩ | hw <;> rw [wrapped_succ, run_bind_of_ok hw]
    · have hinside := (h.nullability { shape := .collection k u }).bind (h.wrapped limit levels)
      exact Leads.nested h.entered hinside (fun _ => h.left) (h.skip c t hc ht)
    · exact hc

/-- What a type expression is, once it is begun. -/
theorem expression (h : Kept loader I E) (hi : Leads I inner (fun _ => I) E)
    (limit levels : Nat) :
    Leads I
      (do
        let t ← Reading.base loader inner
        let t ← Reading.nullability t
        Reading.wrapped limit levels t)
      (fun _ => I) E :=
  (h.base inner hi).bind fun t => (h.nullability t).bind (h.wrapped limit levels)

theorem typeExpression (h : Kept loader I E) (limit : Nat) :
    ∀ levels : Nat, Leads I (typeExpression loader limit levels) (fun _ => I) E
  | 0 => fun c hc => h.tooDeep limit c c.started hc (h.started c hc)
  | levels + 1 => by
    have hbegin : Leads I begin (fun _ => I) E := fun c hc => h.started c hc
    have hi := h.typeExpression limit levels
    rw [typeExpression_succ]
    exact hbegin.bind fun _ => .nested h.entered (h.expression hi limit levels) fun _ => h.left

end Kept

end Reading

end SqlTypes
