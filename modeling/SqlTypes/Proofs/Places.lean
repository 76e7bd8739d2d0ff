import SqlTypes.Proofs.Composition

/-!
# Where faults are

A token is at fault no later than it is looked at. So a problem is at a token that has been passed
or at the next one, and what is wrong with a token itself is at the next one, since such a token is
never passed; and the end of the input is a problem only where there is no next token, or one that
takes all that is left (`Reading.Placed.description`).

A reading keeps the numbers of tokens while it goes on. So what is shown of one is that no fault of
it is further on than its end, if it begins behind the tokens that it has the numbers of. How it is
put together does not tell this alone, as `Reading.Alike` does not compare numbers with the cursor.
-/

namespace SqlTypes

/-- The kinds of problem that a token itself has, where it stands. -/
def ErrorKind.OfToken : ErrorKind → Prop
  | .tokenExpected | .keywordExpected | .invalidInteger | .invalidResolution | .unexpectedToken
  | .unexpectedCharacter => True
  | _ => False

/-- The place of a fault at the cursor `c`. -/
def Fault.PlacedAt (c : Cursor) : Fault → Prop
  | .problem (.token n) p => n ≤ c.passed ∧ (p.kind.OfToken → n = c.passed)
  | .problem .endOfInput p =>
    p = .unexpectedEnd ∧ (c.rest = [] ∨ c.rest.head? = some .unterminated)
  | .rawRestore .. => True

namespace Reading

variable {α β : Type} {m n start : Nat} {x y : Reading α} {f : α → Reading β}

/-- Begun behind `m` tokens or more, `x` does not go back, and its faults are in their places. -/
abbrev Placed (m : Nat) (x : Reading α) : Prop :=
  Leads (m ≤ ·.passed) x (fun _ c => m ≤ c.passed) fun f c => f.PlacedAt c

/-- The same, and the token to blame for the number that `x` reads has been looked at. -/
abbrev PlacedNumeral (m : Nat) (x : Reading Numeral) : Prop :=
  Leads (m ≤ ·.passed) x (fun i c => max m i.origin ≤ c.passed) fun f c => f.PlacedAt c

/-- What is refused is the next token, whatever is wrong with it. -/
theorem refuse_placed {p : Token → Problem} {Q : α → Cursor → Prop} :
    Leads (m ≤ ·.passed) (refuse p) Q fun f c => f.PlacedAt c := by
  intro c _
  rw [Reading.refuse, run_bind_of_ok (run_peek c)]
  rcases ht : c.rest.head? with _ | t
  · exact ⟨rfl, .inl (List.head?_eq_none_iff.1 ht)⟩
  · cases t with
    | unterminated => exact ⟨rfl, .inr ht⟩
    | _ => exact ⟨Nat.le_refl _, fun _ => rfl⟩

namespace Placed

theorem pure (a : α) : Placed m (Pure.pure a) :=
  Leads.pure fun _ hc => hc

theorem bind (hx : Placed m x) (hf : ∀ a, Placed m (f a)) : Placed m (x >>= f) :=
  Leads.bind hx hf

/-- The number of the next token may be used from here on. -/
theorem here {f : Nat → Reading α} (hf : ∀ n, m ≤ n → Placed n (f n)) :
    Placed m (do f (← Reading.here)) := by
  intro c hc
  rw [run_bind_of_ok (run_here c)]
  exact (hf c.passed hc).mono (fun _ _ h => Nat.le_trans hc h) (Nat.le_refl _)

theorem numeral {x : Reading Numeral} {f : Numeral → Reading α} (hx : PlacedNumeral m x)
    (hf : ∀ i, Placed (max m i.origin) (f i)) : Placed m (x >>= f) :=
  Leads.bind hx fun i => (hf i).mono fun _ _ h => Nat.le_trans (Nat.le_max_left m i.origin) h

/-- What follows a look at the next token. -/
theorem look {f : Option Token → Reading α} (hf : ∀ o, Placed m (f o)) :
    Placed m (do f (← peek)) :=
  fun _ hc => hf _ hc

theorem advance : Placed m advance := by
  intro c hc
  rcases advance_cases c with ⟨t, -, hrun⟩ | hrun <;> rw [hrun]
  · exact Nat.le_succ_of_le hc
  · exact hc

theorem failAt {p : Problem} (h : n ≤ m) (hp : ¬p.kind.OfToken) :
    Placed m (failAt (.token n) p : Reading α) :=
  fun _ hc => ⟨Nat.le_trans h hc, fun hkind => absurd hkind hp⟩

theorem orFailAt (h : n ≤ m) (e : Except BadParameter α) : Placed m (orFailAt n e) := by
  cases e with
  | ok a => exact pure a
  | error b => exact failAt h id

theorem refuse {p : Token → Problem} : Placed m (refuse p : Reading α) :=
  refuse_placed

theorem accept (t : Token) : Placed m (accept t) := by
  refine look fun o => ?_
  split_ifs
  · refine advance.bind fun _ => ?_
    exact pure true
  · exact pure false

theorem acceptElse {t : Token} (hx : Placed m x) (hy : Placed m y) :
    Placed m (do if ← Reading.accept t then x else y) := by
  refine (accept t).bind fun b => ?_
  cases b with
  | true => exact hx
  | false => exact hy

theorem expectSymbol (s : Symbol) : Placed m (expectSymbol s) :=
  acceptElse (pure ()) refuse

theorem expectKeyword (k : Keyword) : Placed m (expectKeyword k) :=
  acceptElse (pure ()) refuse

theorem string? : Placed m string? := by
  refine look fun o => ?_
  split
  · refine advance.bind fun _ => ?_
    exact pure _
  · exact pure none

theorem string : Placed m string := by
  refine string?.bind fun s => ?_
  cases s with
  | some content => exact pure content
  | none => exact refuse

theorem name : Placed m name := by
  refine look fun o => ?_
  split
  · refine advance.bind fun _ => ?_
    exact pure _
  · refine advance.bind fun _ => ?_
    exact pure _
  · exact refuse

end Placed

namespace PlacedNumeral

theorem pure {i : Numeral} (h : i.origin ≤ m) : PlacedNumeral m (Pure.pure i) :=
  Leads.pure fun _ hc => Nat.max_le.2 ⟨hc, Nat.le_trans h hc⟩

theorem integer : PlacedNumeral m integer := by
  intro c hc
  rw [Reading.integer, run_bind_of_ok (run_peek c)]
  rcases ht : c.rest.head? with _ | t
  · exact refuse_placed hc
  cases t with
  | integer digits =>
    dsimp only
    rw [run_bind_of_ok (run_here c)]
    cases Text.numberUpTo? largestInteger digits.toList with
    | none => exact ⟨Nat.le_refl _, fun _ => rfl⟩
    | some value =>
      dsimp only
      rw [run_bind_of_ok (run_advance ht)]
      exact Nat.le_succ_of_le (Nat.max_le.2 ⟨hc, Nat.le_refl _⟩)
  | _ => exact refuse_placed hc

theorem parameterOr {o : Numeral} (h : o.origin ≤ m) : PlacedNumeral m (parameterOr o) := by
  refine Leads.bind (Placed.accept _) fun b => ?_
  cases b with
  | true =>
    refine Leads.bind integer fun i => ?_
    refine Leads.bind (Placed.expectSymbol _) fun _ => ?_
    exact Leads.pure fun _ hc => hc
  | false => exact pure h

end PlacedNumeral

namespace Placed

theorem make (h : n ≤ m) (s : Shape DataType) : Placed m (make n s) :=
  orFailAt h _

theorem withParameter (h : start ≤ m) (p : Parameter) (hx : ∀ m, Placed m x)
    (atom : Nat → α → Atom) : Placed m (withParameter start p x atom) := by
  refine numeral (.parameterOr h) fun i => ?_
  refine (hx _).bind fun a => ?_
  exact make (Nat.le_max_right m i.origin) _

theorem sized (h : start ≤ m) (s : Sized) : Placed m (sized start s) :=
  withParameter h _ (fun _ => pure ()) _

theorem scale : Placed m scale := by
  refine acceptElse ?_ (pure _)
  refine numeral .integer fun i => ?_
  exact pure i.value

theorem decimal (h : start ≤ m) : Placed m (decimal start) := by
  refine acceptElse ?_ (make h _)
  refine numeral .integer fun precision => ?_
  refine scale.bind fun scale => ?_
  refine (expectSymbol _).bind fun _ => ?_
  exact make (Nat.le_max_right m precision.origin) _

theorem timeZone : Placed m timeZone := by
  refine (expectKeyword _).bind fun _ => ?_
  exact expectKeyword _

theorem withoutZone : Placed m withoutZone :=
  acceptElse timeZone (pure ())

theorem time (h : start ≤ m) : Placed m (time start) :=
  withParameter h _ (fun _ => withoutZone) _

theorem withZone : Placed m withZone := by
  refine acceptElse ?_ (pure _)
  refine (accept _).bind fun isLocal => ?_
  refine timeZone.bind fun _ => ?_
  exact pure _

theorem zone : Placed m zone := by
  refine acceptElse ?_ withZone
  refine timeZone.bind fun _ => ?_
  exact pure _

theorem timestamp (h : start ≤ m) : Placed m (timestamp start) :=
  withParameter h _ (fun _ => zone) _

theorem localZonedTimestamp (h : start ≤ m) : Placed m (localZonedTimestamp start) :=
  withParameter h _ (fun _ => pure ()) _

theorem resolutionInvalid : Placed m (resolutionInvalid : Reading α) :=
  refuse

theorem unit : Placed m unit := by
  refine look fun o => ?_
  split
  · refine advance.bind fun _ => ?_
    exact pure _
  · exact resolutionInvalid

theorem endOfRange : Placed m endOfRange := by
  refine look fun o => ?_
  split_ifs
  · exact resolutionInvalid
  · exact pure ()

theorem yearRange : Placed m yearRange := by
  refine acceptElse ?_ (pure _)
  exact acceptElse (pure _) resolutionInvalid

theorem fromYear (h : start ≤ m) : Placed m (fromYear start) := by
  refine numeral (.parameterOr h) fun years => ?_
  refine yearRange.bind fun range => ?_
  refine endOfRange.bind fun _ => ?_
  exact make (Nat.le_max_right m years.origin) _

theorem fromMonth (h : start ≤ m) : Placed m (fromMonth start) := by
  refine endOfRange.bind fun _ => ?_
  exact make h _

theorem rangeFrom (first : TimeUnit) : Placed m (rangeFrom first) := by
  refine look fun o => ?_
  split
  · refine advance.bind fun _ => ?_
    exact pure _
  · exact resolutionInvalid

theorem dayTimeRange (single : DayTime) : Placed m (dayTimeRange single) :=
  acceptElse (rangeFrom _) (pure _)

theorem fromUnit (h : start ≤ m) (single : DayTime) {days : Numeral} (hd : days.origin ≤ m) :
    Placed m (fromUnit start single days) := by
  have hfraction : ∀ range, PlacedNumeral m (fraction start range) := by
    intro range
    unfold fraction
    split_ifs
    · exact .parameterOr h
    · exact .pure h
  refine (dayTimeRange single).bind fun range => ?_
  refine numeral (hfraction range) fun fraction => ?_
  refine endOfRange.bind fun _ => make ?_ _
  split_ifs
  · exact Nat.le_max_right m fraction.origin
  · exact Nat.le_trans hd (Nat.le_max_left m fraction.origin)

theorem interval (h : start ≤ m) : Placed m (interval start) := by
  refine unit.bind fun u => ?_
  cases u with
  | year => exact fromYear h
  | month => exact fromMonth h
  | day =>
    refine numeral (.parameterOr h) fun days => ?_
    exact fromUnit (Nat.le_trans h (Nat.le_max_left m days.origin)) _
      (Nat.le_max_right m days.origin)
  | hour | minute | second => exact fromUnit h _ h

theorem moreSegments : ∀ k : Nat, Placed m (moreSegments k)
  | 0 => pure _
  | k + 1 => by
    refine acceptElse ?_ (pure _)
    refine name.bind fun segment => ?_
    refine (moreSegments k).bind fun segments => ?_
    exact pure _

theorem unresolved : Placed m unresolved := by
  refine here fun start _ => ?_
  refine name.bind fun first => ?_
  refine (moreSegments _).bind fun others => ?_
  refine (orFailAt (Nat.le_refl start) _).bind fun name => ?_
  exact make (Nat.le_refl start) _

theorem twoStrings : Placed m twoStrings := by
  refine (expectSymbol _).bind fun _ => ?_
  refine string.bind fun first => ?_
  refine (expectSymbol _).bind fun _ => ?_
  refine string.bind fun second => ?_
  refine (expectSymbol _).bind fun _ => ?_
  exact pure _

theorem raw (h : start ≤ m) (loader : Loader) : Placed m (raw loader start) := by
  refine twoStrings.bind fun ⟨className, snapshot⟩ => ?_
  dsimp only
  split
  · exact make h _
  · exact fun _ _ => trivial

theorem legacy (h : start ≤ m) (loader : Loader) : Placed m (legacy loader start) := by
  refine twoStrings.bind fun ⟨family, payload⟩ => ?_
  dsimp only
  split
  · exact failAt h id
  · split
    · exact pure _
    · exact failAt h id

/-! ## Types with types inside -/

section Inside

variable {loader : Loader} {inner : Reading DataType}

theorem nullability (t : DataType) : Placed m (nullability t) := by
  refine here fun n _ => acceptElse ?_ ?_
  · refine (expectKeyword _).bind fun _ => ?_
    exact orFailAt (Nat.le_refl n) _
  · refine (accept _).bind fun _ => ?_
    exact pure t

theorem openRow : Placed m openRow := by
  refine acceptElse (pure _) ?_
  exact acceptElse (pure _) refuse

variable (hi : ∀ m, Placed m inner)
include hi

theorem collection (h : start ≤ m) (k : Collection) : Placed m (collection inner start k) := by
  refine (expectSymbol _).bind fun _ => ?_
  refine (hi m).bind fun element => ?_
  refine (expectSymbol _).bind fun _ => ?_
  exact make h _

theorem map (h : start ≤ m) : Placed m (map inner start) := by
  refine (expectSymbol _).bind fun _ => ?_
  refine (hi m).bind fun key => ?_
  refine (expectSymbol _).bind fun _ => ?_
  refine (hi m).bind fun value => ?_
  refine (expectSymbol _).bind fun _ => ?_
  exact make h _

theorem member : Placed m (member inner) := by
  refine name.bind fun name => ?_
  refine (hi m).bind fun type => ?_
  refine string?.bind fun description => ?_
  exact pure _

theorem moreMembers : ∀ (bound : List Token) (before : List (Member DataType)),
    Placed m (moreMembers inner before bound)
  | [], _ => pure _
  | _ :: bound, before => by
    refine acceptElse ?_ (pure _)
    refine (member hi).bind fun next => ?_
    exact moreMembers bound (next :: before)

theorem membersAfter (before : List (Member DataType)) : Placed m (membersAfter inner before) :=
  fun c hc => moreMembers hi c.rest before hc

theorem fields (close : Symbol) : Placed m (fields inner close) := by
  refine look fun o => ?_
  split_ifs
  · exact pure _
  · refine (member hi).bind fun first => ?_
    exact membersAfter hi _

theorem row (h : start ≤ m) : Placed m (row inner start) := by
  refine openRow.bind fun close => ?_
  refine (fields hi close).bind fun fields => ?_
  refine (expectSymbol close).bind fun _ => ?_
  exact make h _

theorem structured (h : start ≤ m) : Placed m (structured inner start) := by
  refine (expectSymbol _).bind fun _ => ?_
  refine string.bind fun className => ?_
  refine (membersAfter hi _).bind fun attributes => ?_
  refine (expectSymbol _).bind fun _ => ?_
  exact make h _

theorem afterKeyword (h : start ≤ m) (k : Keyword) :
    Placed m (afterKeyword loader inner start k) := by
  cases k with
  | char | varchar | binary | varbinary => exact sized h _
  | decimal | dec | numeric => exact decimal h
  | double =>
    refine (accept _).bind fun _ => ?_
    exact make h _
  | time => exact time h
  | timestamp => exact timestamp h
  | timestampLtz => exact localZonedTimestamp h
  | interval => exact interval h
  | array | multiset => exact collection hi h _
  | map => exact map hi h
  | row => exact row hi h
  | structured => exact structured hi h
  | raw => exact raw h loader
  | legacy => exact legacy h loader
  | string | bytes | boolean | tinyint | smallint | int | integer | bigint | float | date | null
  | descriptor => exact make h _
  | _ => exact failAt h id

theorem base : Placed m (base loader inner) := by
  refine look fun o => ?_
  split
  · refine here fun n _ => ?_
    refine advance.bind fun _ => ?_
    exact afterKeyword hi (Nat.le_refl n) _
  · exact unresolved
  · exact unresolved
  · exact refuse

end Inside

theorem tooDeep (h : n ≤ m) (limit : Nat) : Placed m (tooDeep limit n) :=
  fun _ hc => ⟨Nat.le_trans h hc, False.elim⟩

theorem nested {x : Reading α} (hx : Placed m x) : Placed m (nested x) :=
  Leads.nested (fun _ hc => hc) hx fun _ _ hc => hc

theorem wrapped (limit : Nat) : ∀ (levels : Nat) {m : Nat} (t : DataType),
    Placed m (wrapped limit levels t)
  | 0, m, t => by
    intro c hc
    rcases run_wrapper?_cases c with ⟨k, u, -, hw⟩ | hw <;> rw [Reading.wrapped, run_bind_of_ok hw]
    · exact tooDeep (Nat.le_refl _) limit (Nat.le_succ c.passed)
    · exact hc
  | levels + 1, m, t => by
    intro c hc
    rcases run_wrapper?_cases c with ⟨k, u, -, hw⟩ | hw <;> rw [wrapped_succ, run_bind_of_ok hw]
    · have hmark : Placed m (Reading.nullability { shape := .collection k t }) := nullability _
      have hinside := hmark.bind fun u => wrapped limit levels u
      exact nested hinside (Nat.le_succ_of_le hc)
    · exact hc

theorem typeExpression (loader : Loader) (limit : Nat) : ∀ (levels : Nat) {m : Nat},
    Placed m (typeExpression loader limit levels)
  | 0, m => by
    have hbegin : Placed m begin := fun _ hc => hc
    refine hbegin.bind fun _ => ?_
    exact here fun n _ => tooDeep (Nat.le_refl n) limit
  | levels + 1, m => by
    have hbegin : Placed m begin := fun _ hc => hc
    have hi : ∀ m, Placed m (Reading.typeExpression loader limit levels) :=
      fun _ => typeExpression loader limit levels
    rw [typeExpression_succ]
    refine hbegin.bind fun _ => nested ?_
    refine (base hi).bind fun t => ?_
    refine (nullability t).bind fun u => ?_
    exact wrapped limit levels u

/-- All faults of a description are in their places. -/
theorem description (loader : Loader) (limit : Nat) : Placed 0 (description loader limit) := by
  have hend : ∀ t, Placed 0 (ending t) := by
    refine fun t => look fun o => ?_
    cases o with
    | none => exact pure t
    | some u => exact refuse
  intro c hc
  rw [run_description]
  exact (typeExpression loader limit _).bind hend hc

end Placed

end Reading

end SqlTypes
