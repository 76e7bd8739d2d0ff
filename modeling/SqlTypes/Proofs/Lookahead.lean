import SqlTypes.Proofs.Composition

/-!
# Looking ahead

A reading looks at one token after the other, and at none behind the first that it does not pass. So
two runs over tokens that begin with the same ones go the same way up to where one of them looks
behind these (`Reading.Agree`); and if there is nothing behind them for the one run while the other
ends with a value, the one run ends with a value as well, or says that it has come to the end.
-/

namespace SqlTypes

namespace Cursor

variable {c : Cursor} {t : Token} {r : List Token}

/-- The same cursor with more tokens behind those that are left. -/
def extend (c : Cursor) (r : List Token) : Cursor :=
  { c with rest := c.rest ++ r }

/-- The number of the first token behind those that are left. -/
def stop (c : Cursor) : Nat :=
  c.passed + c.rest.length

@[simp] theorem extend_passed (c : Cursor) (r : List Token) : (c.extend r).passed = c.passed := rfl

@[simp] theorem extend_nil (c : Cursor) : c.extend [] = c := by
  rw [extend, List.append_nil]

theorem head?_extend (ht : c.rest.head? = some t) : (c.extend r).rest.head? = some t := by
  rw [extend, List.head?_append, ht, Option.some_or]

theorem skip_extend (ht : c.rest.head? = some t) : (c.extend r).skip = c.skip.extend r := by
  obtain ⟨rest, hr⟩ := List.head?_eq_some_iff.1 ht
  simp [extend, skip, hr]

theorem stop_skip (ht : c.rest.head? = some t) : c.skip.stop = c.stop := by
  obtain ⟨rest, hr⟩ := List.head?_eq_some_iff.1 ht
  simp only [stop, skip, hr, List.tail_cons, List.length_cons]
  omega

theorem stop_of_rest (hc : c.rest = []) : c.stop = c.passed := by
  rw [stop, hc, List.length_nil, Nat.add_zero]

end Cursor

namespace Reading

variable {α β : Type}

/-- How many tokens have been passed up to a fault. A keyword that begins no type is at fault
itself, though it is passed. -/
def progressTo (c : Cursor) : Fault → Nat
  | .problem (.token n) (.unsupportedType _) => n
  | _ => c.passed

/-- How many tokens a run passes. -/
def progress : EStateM.Result Fault Cursor α → Nat
  | .ok _ c => c.passed
  | .error f c => progressTo c f

/-- A run ends at the end of the input: with a value as `P` says, or because there is no more. -/
def AtEnd (P : α → Prop) : EStateM.Result Fault Cursor α → Prop
  | .ok a c => c.rest = [] ∧ P a
  | .error f _ => f = .problem .endOfInput .unexpectedEnd

/-- Values have nothing in common. -/
abbrev Any (_ _ : α) : Prop := True

/-- How two runs end, over tokens that are the same up to the number `k`, with `r` behind them for
the first and `r'` for the second: in the same way, or not before they have both gone so far. If
there is nothing behind them for the first run, and the second has a value, then the first has come
to its end; `V` says what the values have in common. -/
inductive Agree (k : Nat) (r r' : List Token) (V : α → α → Prop) :
    EStateM.Result Fault Cursor α → EStateM.Result Fault Cursor α → Prop
  | ok {a : α} {c : Cursor} : c.stop = k →
      Agree k r r' V (.ok a (c.extend r)) (.ok a (c.extend r'))
  | error {f : Fault} {c : Cursor} :
      Agree k r r' V (.error f (c.extend r)) (.error f (c.extend r'))
  | apart {x y : EStateM.Result Fault Cursor α} : k ≤ progress x → k ≤ progress y →
      (r = [] → ∀ b c, y = .ok b c → AtEnd (V · b) x) → Agree k r r' V x y

/-- Runs of `x` over tokens that begin with the same ones agree, and none goes back. -/
structure Agrees (V : α → α → Prop) (x : Reading α) : Prop where
  agree : ∀ (c : Cursor) (r r' : List Token),
    Agree c.stop r r' V (x.run (c.extend r)) (x.run (c.extend r'))
  onward : ∀ c : Cursor, c.passed ≤ progress (x.run c)

/-- If `y` has a value, then `x` ends at the end of the input where there is none left. -/
def EndsWell (W : α → α → Prop) (x y : Reading α) : Prop :=
  ∀ ⦃c c' b c''⦄, c.rest = [] → y.run c' = .ok b c'' → AtEnd (W · b) (x.run c)

/-- With no tokens left, `x` ends at the end of the input. -/
def Finishes (P : α → Prop) (x : Reading α) : Prop :=
  ∀ ⦃c⦄, c.rest = [] → AtEnd P (x.run c)

variable {V W : α → α → Prop} {P : α → Prop} {Q : β → Prop} {x y : Reading α}

theorem AtEnd.mono {r : EStateM.Result Fault Cursor α} {P' : α → Prop} (h : AtEnd P r)
    (hP : ∀ a, P a → P' a) : AtEnd P' r :=
  match r, h with
  | .ok a _, ⟨hc, ha⟩ => ⟨hc, hP a ha⟩
  | .error _ _, hf => hf

theorem AtEnd.bind {f : α → Reading β} {c : Cursor} (hx : AtEnd P (x.run c))
    (hf : ∀ a c, P a → c.rest = [] → AtEnd Q ((f a).run c)) : AtEnd Q ((x >>= f).run c) := by
  rw [EStateM.run_bind]
  rcases hr : x.run c with ⟨a, c₁⟩ | ⟨e, c₁⟩ <;> rw [hr] at hx
  · exact hf a c₁ hx.2 hx.1
  · exact hx

namespace Finishes

theorem pure {a : α} (ha : P a) : Finishes P (Pure.pure a : Reading α) :=
  fun _ hc => ⟨hc, ha⟩

theorem bind {f : α → Reading β} (hx : Finishes P x) (hf : ∀ a, P a → Finishes Q (f a)) :
    Finishes Q (x >>= f) :=
  fun _ hc => (hx hc).bind fun a _ ha hc => hf a ha hc

theorem endsWell (hx : ∀ b, Finishes (W · b) x) : EndsWell W x y :=
  fun _ _ b _ hc _ => hx b hc

theorem any (hx : Finishes (fun _ => True) x) : EndsWell Any x y :=
  endsWell fun _ => hx

/-- What follows does not matter where there is no value at the end of the input. -/
theorem refused {f : α → Reading β} (hx : Finishes (fun _ => False) x) : Finishes Q (x >>= f) :=
  hx.bind fun _ h => h.elim

end Finishes

namespace EndsWell

theorem pure {a b : α} (h : W a b) : EndsWell W (Pure.pure a) (Pure.pure b) := by
  intro c c' d c'' hc hd
  obtain ⟨rfl, -⟩ := run_pure_ok.1 hd
  exact ⟨hc, h⟩

theorem bind {U : β → β → Prop} {f g : α → Reading β} (hx : Finishes P x)
    (hf : ∀ a b, P a → EndsWell U (f a) (g b)) : EndsWell U (x >>= f) (y >>= g) := by
  intro c c' d c'' hc hd
  obtain ⟨b, c₂, -, hd⟩ := run_bind_ok.1 hd
  exact (hx hc).bind fun a c₁ ha hc₁ => hf a b ha hc₁ hd

end EndsWell

theorem Agree.mono {k : Nat} {r r' : List Token} {X Y : EStateM.Result Fault Cursor α}
    (h : Agree k r r' V X Y) (hVW : ∀ a b, V a b → W a b) : Agree k r r' W X Y := by
  cases h with
  | ok hk => exact .ok hk
  | error => exact .error
  | apart h₁ h₂ hends =>
    exact .apart h₁ h₂ fun hr b c hb => (hends hr b c hb).mono fun a => hVW a b

theorem progress_bind {f : α → Reading β} {c : Cursor} {k : Nat} (hx : k ≤ progress (x.run c))
    (hf : ∀ a (c : Cursor), c.passed ≤ progress ((f a).run c)) :
    k ≤ progress ((x >>= f).run c) := by
  rw [EStateM.run_bind]
  rcases hr : x.run c with ⟨a, c₁⟩ | ⟨e, c₁⟩ <;> rw [hr] at hx
  · exact Nat.le_trans hx (hf a c₁)
  · exact hx

namespace Agrees

theorem bind {U : β → β → Prop} {f : α → Reading β} (hx : Agrees V x) (hf : ∀ a, Agrees U (f a))
    (hend : ∀ a b, V a b → EndsWell U (f a) (f b)) : Agrees U (x >>= f) := by
  have honward : ∀ a (c : Cursor), c.passed ≤ progress ((f a).run c) := fun a => (hf a).onward
  refine ⟨fun c r r' => ?_, fun c => progress_bind (hx.onward c) honward⟩
  have hagree := hx.agree c r r'
  generalize hX : x.run (c.extend r) = X at hagree
  generalize hY : x.run (c.extend r') = Y at hagree
  cases hagree with
  | @ok a c₁ hk =>
    rw [run_bind_of_ok hX, run_bind_of_ok hY, ← hk]
    exact (hf a).agree c₁ r r'
  | error =>
    rw [EStateM.run_bind, EStateM.run_bind, hX, hY]
    exact .error
  | apart h₁ h₂ hends =>
    refine .apart (progress_bind (hX ▸ h₁) honward) (progress_bind (hY ▸ h₂) honward) ?_
    intro hr d c'' hd
    obtain ⟨b, c₂, hb, hd⟩ := run_bind_ok.1 hd
    have hatEnd := hends hr b c₂ (hY ▸ hb)
    rw [EStateM.run_bind, hX]
    rcases X with ⟨a, c₁⟩ | ⟨e, c₁⟩
    · exact hend a b hatEnd.2 hatEnd.1 hd
    · exact hatEnd

/-- Where the first reading never has a value at the end of the input. -/
theorem seq {U : β → β → Prop} {f : α → Reading β} (hx : Agrees (fun _ _ => False) x)
    (hf : ∀ a, Agrees U (f a)) : Agrees U (x >>= f) :=
  hx.bind hf fun _ _ h => h.elim

theorem mono (hx : Agrees V x) (h : ∀ a b, V a b → W a b) : Agrees W x :=
  ⟨fun c r r' => (hx.agree c r r').mono h, hx.onward⟩

/-- What the second value is like, however it was read. -/
theorem having (hx : Agrees V x) (h : ∀ c b c', x.run c = .ok b c' → P b) :
    Agrees (fun a b => V a b ∧ P b) x := by
  refine ⟨fun c r r' => ?_, hx.onward⟩
  have hagree := hx.agree c r r'
  generalize x.run (c.extend r) = X at hagree
  generalize hY : x.run (c.extend r') = Y at hagree
  cases hagree with
  | ok hk => exact .ok hk
  | error => exact .error
  | apart h₁ h₂ hends =>
    refine .apart h₁ h₂ fun hr b c' hb => ?_
    exact (hends hr b c' hb).mono fun a ha => ⟨ha, h _ _ _ (hY.trans hb)⟩

theorem pure (a : α) : Agrees V (Pure.pure a) :=
  ⟨fun _ _ _ => .ok rfl, fun _ => Nat.le_refl _⟩

theorem here {V : Nat → Nat → Prop} : Agrees V here :=
  ⟨fun _ _ _ => .ok rfl, fun _ => Nat.le_refl _⟩

end Agrees

/-! ## The next token -/

theorem progressTo_of_ne {f : Fault} {c : Cursor}
    (hf : ∀ k place, f ≠ .problem place (.unsupportedType k)) : progressTo c f = c.passed := by
  unfold progressTo
  split
  · exact absurd rfl (hf _ _)
  · rfl

theorem Agrees.fault {f : Fault} (hf : ∀ k place, f ≠ .problem place (.unsupportedType k)) :
    Agrees V (throw f : Reading α) :=
  ⟨fun _ _ _ => .error, fun _ => (progressTo_of_ne hf).ge⟩

theorem Agrees.orFailAt (number : Nat) (e : Except BadParameter α) :
    Agrees V (orFailAt number e) := by
  cases e with
  | ok a => exact .pure a
  | error b => exact .fault fun _ _ => nofun

/-- Runs of `x` agree that begin in front of `t`. -/
structure AgreesBefore (t : Token) (V : α → α → Prop) (x : Reading α) : Prop where
  agree : ∀ (c : Cursor) (r r' : List Token), c.rest.head? = some t →
    Agree c.stop r r' V (x.run (c.extend r)) (x.run (c.extend r'))
  onward : ∀ c : Cursor, c.rest.head? = some t → c.passed ≤ progress (x.run c)

theorem Agrees.before {t : Token} (hx : Agrees V x) : AgreesBefore t V x :=
  ⟨fun c r r' _ => hx.agree c r r', fun c _ => hx.onward c⟩

namespace AgreesBefore

variable {t : Token}

theorem advance (hx : Agrees V x) : AgreesBefore t V (do Reading.advance; x) := by
  refine ⟨fun c r r' ht => ?_, fun c ht => ?_⟩
  · rw [run_bind_of_ok (run_advance (Cursor.head?_extend ht)),
      run_bind_of_ok (run_advance (Cursor.head?_extend ht)), Cursor.skip_extend ht,
      Cursor.skip_extend ht, ← Cursor.stop_skip ht]
    exact hx.agree c.skip r r'
  · rw [run_bind_of_ok (run_advance ht)]
    exact Nat.le_of_succ_le (hx.onward c.skip)

theorem here {f : Nat → Reading α} (hf : ∀ n, AgreesBefore t V (f n)) :
    AgreesBefore t V (do f (← Reading.here)) :=
  ⟨fun c => (hf c.passed).agree c, fun c => (hf c.passed).onward c⟩

/-- A token may be passed before it is found to be at fault. -/
theorem reject {p : Problem} :
    AgreesBefore t V (do
      let n ← Reading.here
      Reading.advance
      (failAt (.token n) p : Reading α)) := by
  have run : ∀ {c : Cursor}, c.rest.head? = some t → EStateM.run (do
      let n ← Reading.here
      Reading.advance
      (failAt (.token n) p : Reading α)) c = .error (.problem (.token c.passed) p) c.skip :=
    fun {c} ht => by
      rw [run_bind_of_ok (run_here c), run_bind_of_ok (run_advance ht)]
      rfl
  refine ⟨fun c r r' ht => ?_, fun c ht => ?_⟩
  · rw [run (Cursor.head?_extend ht), run (Cursor.head?_extend ht), Cursor.skip_extend ht,
      Cursor.skip_extend ht]
    exact .error
  · rw [run ht, progress]
    unfold progressTo
    split
    · cases ‹_ = _›
      exact Nat.le_refl _
    · exact Nat.le_succ _

end AgreesBefore

/-- What follows a look at the next token. -/
theorem Agrees.look {f : Option Token → Reading α} (hf : ∀ t, AgreesBefore t V (f (some t)))
    (hn : Agrees V (f none)) (hend : ∀ b, Finishes (V · b) (f none)) :
    Agrees V (do f (← peek)) := by
  have honward : ∀ c : Cursor, c.passed ≤ progress ((f c.rest.head?).run c) := by
    intro c
    cases ht : c.rest.head? with
    | none => exact hn.onward c
    | some t => exact (hf t).onward c ht
  refine ⟨fun c r r' => ?_, honward⟩
  rw [run_bind_of_ok (run_peek _), run_bind_of_ok (run_peek _)]
  cases ht : c.rest.head? with
  | some t =>
    rw [Cursor.head?_extend ht, Cursor.head?_extend ht]
    exact (hf t).agree c r r' ht
  | none =>
    have hc : c.rest = [] := List.head?_eq_none_iff.1 ht
    rw [Cursor.stop_of_rest hc]
    refine .apart (honward (c.extend r)) (honward (c.extend r')) ?_
    rintro rfl b c'' -
    rw [Cursor.extend_nil, ht]
    exact hend b hc

section Refuse

variable {p : Token → Problem}

theorem run_refuse_nil {c : Cursor} (hc : c.rest = []) :
    (refuse p : Reading α).run c = .error (.problem .endOfInput .unexpectedEnd) c := by
  rw [refuse, run_bind_of_ok (run_peek c), hc]
  rfl

theorem refuse_finishes : Finishes P (refuse p) := by
  intro c hc
  rw [run_refuse_nil hc]
  rfl

theorem Agrees.refuse (hp : ∀ t k, p t ≠ .unsupportedType k) : Agrees V (refuse p) := by
  refine .look (fun t => Agrees.before ?_) (.fault fun _ _ => nofun) fun _ _ _ => rfl
  cases t with
  | unterminated => exact .fault fun _ _ => nofun
  | stray u => exact .seq .here fun _ => .fault fun _ _ => nofun
  | _ => exact .seq .here fun _ => .fault (by simp [hp])

theorem AgreesBefore.refuse {t : Token} (hp : ∀ t k, p t ≠ .unsupportedType k) :
    AgreesBefore t V (Reading.refuse p) :=
  (Agrees.refuse hp).before

end Refuse

/-- The next token decides between two readings. -/
theorem Agrees.peekElse {t : Token} (hx : Agrees W x) (hy : Agrees W y)
    (hend : ∀ b, Finishes (W · b) y) : Agrees W (do if (← peek) = some t then x else y) := by
  refine .look (fun u => Agrees.before ?_) hy hend
  split_ifs
  · exact hx
  · exact hy

theorem run_accept_nil {t : Token} {c : Cursor} (hc : c.rest = []) :
    (accept t).run c = .ok false c :=
  run_accept_other hc nofun

theorem accept_finishes (t : Token) : Finishes (· = false) (accept t) := by
  intro c hc
  rw [run_accept_nil hc]
  exact ⟨hc, rfl⟩

theorem Finishes.acceptElse {t : Token} (hy : Finishes P y) :
    Finishes P (do if ← accept t then x else y) := by
  intro c hc
  rw [run_bind_of_ok (run_accept_nil hc)]
  exact hy hc

namespace Agrees

theorem accept (t : Token) : Agrees (fun a _ => a = false) (accept t) := by
  refine .look (fun u => ?_) (.pure false) fun _ => .pure rfl
  split_ifs
  · exact .advance (.pure true)
  · exact (Agrees.pure false).before

/-- Where what is read otherwise ends at the end of the input. -/
theorem acceptOr {t : Token} (hx : Agrees W x) (hy : Agrees W y)
    (hend : ∀ b, Finishes (W · b) y) : Agrees W (do if ← Reading.accept t then x else y) := by
  refine .bind (.accept t) (fun b => ?_) ?_
  · cases b with
    | true => exact hx
    | false => exact hy
  · rintro _ b rfl
    exact Finishes.endsWell hend

theorem acceptOrRefuse {t : Token} {a : α} {p : Token → Problem}
    (hp : ∀ t k, p t ≠ .unsupportedType k) :
    Agrees V (do if ← Reading.accept t then Pure.pure a else Reading.refuse p) :=
  .acceptOr (.pure a) (.refuse hp) fun _ => refuse_finishes

theorem expectSymbol {V : Unit → Unit → Prop} (s : Symbol) : Agrees V (expectSymbol s) :=
  acceptOrRefuse fun _ _ => nofun

theorem expectKeyword {V : Unit → Unit → Prop} (k : Keyword) : Agrees V (expectKeyword k) :=
  acceptOrRefuse fun _ _ => nofun

end Agrees

theorem expectSymbol_finishes {P : Unit → Prop} (s : Symbol) : Finishes P (expectSymbol s) :=
  refuse_finishes.acceptElse

theorem expectKeyword_finishes {P : Unit → Prop} (k : Keyword) : Finishes P (expectKeyword k) :=
  refuse_finishes.acceptElse

theorem string?_finishes : Finishes (· = none) string? := by
  intro c hc
  rw [run_string?_none hc nofun]
  exact ⟨hc, rfl⟩

theorem Agrees.string? : Agrees (fun a _ => a = none) string? := by
  refine .look (fun t => ?_) (.pure none) fun _ => .pure rfl
  cases t with
  | string content => exact .advance (.pure _)
  | _ => exact (Agrees.pure none).before

theorem Agrees.string {V : String → String → Prop} : Agrees V string := by
  refine .bind .string? (fun s => ?_) ?_
  · cases s with
    | some content => exact .pure content
    | none => exact .refuse fun _ _ => nofun
  · rintro _ b rfl
    exact Finishes.endsWell fun _ => refuse_finishes

theorem name_finishes {P : String → Prop} : Finishes P name := by
  intro c hc
  rw [name, run_bind_of_ok (run_peek c), hc]
  exact refuse_finishes hc

theorem Agrees.name {V : String → String → Prop} : Agrees V name := by
  refine .look (fun t => ?_) (.refuse fun _ _ => nofun) fun _ => refuse_finishes
  cases t with
  | word s | quoted s => exact .advance (.pure s)
  | _ => exact .refuse fun _ _ => nofun

theorem Agrees.integer {V : Numeral → Numeral → Prop} : Agrees V integer := by
  refine .look (fun t => ?_) (.refuse fun _ _ => nofun) fun _ => refuse_finishes
  cases t with
  | integer digits =>
    refine .here fun n => ?_
    split
    · exact .advance (.pure _)
    · refine Agrees.before ?_
      exact .fault fun _ _ => nofun
  | _ => exact .refuse fun _ _ => nofun

end Reading

end SqlTypes
