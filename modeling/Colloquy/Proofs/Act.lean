import Colloquy.Act
import Mathlib.Data.List.Forall2

/-!
# Colloquy — laws of acts

An act is known by what it makes of a world (`Act.perform`): a result or a failure,
and a new world. A sequence of acts succeeds if all of them do, each in the world that
the one before it left (`Act.perform_bind_eq_ok_iff`), and fails if one does after the
others succeeded (`Act.perform_bind_eq_error_iff`). Acts that leave a view of the
world as it is are closed under all this (`Act.Keeps`), and so are those whose values and
failures have a property (`Act.Ensures`). An act may also do the same in worlds that are
related (`Act.Respects`). Draws are known by their values alike (`Draw.Gives`); those that are
gathered all succeed, or the first that fails decides (`Draw.makes_gather`,
`Draw.failsIn_gather`).
-/

namespace Colloquy

theorem exists_of_map_eq_ok {ε α β : Type} {f : α → β} {result : Except ε α} {b : β}
    (h : result.map f = .ok b) : ∃ a, result = .ok a ∧ f a = b := by
  cases result with
  | error e => exact absurd h nofun
  | ok a => exact ⟨a, rfl, Except.ok.inj h⟩

theorem exists_of_bind_eq_ok {ε α β : Type} {result : Except ε α} {f : α → Except ε β} {b : β}
    (h : (result >>= f) = .ok b) : ∃ a, result = .ok a ∧ f a = .ok b := by
  cases result with
  | error e => exact absurd h nofun
  | ok a => exact ⟨a, rfl, h⟩

theorem map_eq_error_iff {ε α β : Type} {f : α → β} {result : Except ε α} {e : ε} :
    result.map f = .error e ↔ result = .error e := by
  cases result with
  | error e' => exact ⟨fun h => congrArg _ (Except.error.inj h), fun h => congrArg _ h⟩
  | ok a => exact ⟨nofun, nofun⟩

namespace Act

variable {σ α β : Type}

-- ---------------------------------------------------------------------------
-- Performing
-- ---------------------------------------------------------------------------

/-- An act has a result in some world. -/
theorem exists_perform_eq {act : Act σ α} {w : World σ} {result : Except Failure α}
    (h : (act.perform w).1 = result) : ∃ w', act.perform w = (result, w') :=
  ⟨_, Prod.ext h rfl⟩

@[simp]
theorem perform_pure (a : α) (w : World σ) : (pure a : Act σ α).perform w = (.ok a, w) := rfl

@[simp]
theorem perform_throw (f : Failure) (w : World σ) :
    (throw f : Act σ α).perform w = (.error f, w) := rfl

@[simp]
theorem perform_fail (e : Error) (w : World σ) :
    (fail e : Act σ α).perform w = (.error (.error e), w) := rfl

theorem perform_ofExcept_eq_ok_iff {result : Except Error α} {w w' : World σ} {a : α} :
    (ofExcept result : Act σ α).perform w = (.ok a, w') ↔ result = .ok a ∧ w' = w := by
  cases result with
  | ok b => simp [ofExcept, eq_comm]
  | error e => simp [ofExcept]

theorem ofExcept_map_bind {γ : Type} (result : Except Error α) (f : α → β) (act : β → Act σ γ) :
    (ofExcept (result.map f) >>= act : Act σ γ) = ofExcept result >>= fun a => act (f a) := by
  cases result with
  | ok a => rfl
  | error e => rfl

theorem perform_bind (act : Act σ α) (f : α → Act σ β) (w : World σ) :
    (act >>= f).perform w =
      match act.perform w with
      | (.ok a, w') => (f a).perform w'
      | (.error e, w') => (.error e, w') := by
  show (let (r, w') := act.perform w
    (ExceptT.bindCont f r : StateM (World σ) (Except Failure β)) w') = _
  rcases act.perform w with ⟨e | a, w₁⟩ <;> rfl

/-- A function of what an act gives. -/
theorem perform_bind_pure (act : Act σ α) (f : α → β) (w : World σ) :
    (act >>= fun a => pure (f a)).perform w = ((act.perform w).1.map f, (act.perform w).2) := by
  rw [perform_bind]
  rcases act.perform w with ⟨e | a, w₁⟩ <;> rfl

theorem perform_bind_eq_ok_iff {act : Act σ α} {f : α → Act σ β} {w w' : World σ} {b : β} :
    (act >>= f).perform w = (.ok b, w') ↔
      ∃ a w₁, act.perform w = (.ok a, w₁) ∧ (f a).perform w₁ = (.ok b, w') := by
  rw [perform_bind]
  rcases act.perform w with ⟨e | a, w₁⟩
  · simp
  · simp [and_assoc]

theorem exists_of_perform_ofFailable_bind {result : Except Failure α} {f : α → Act σ β}
    {w w' : World σ} {b : β} (h : (ofFailable result >>= f).perform w = (.ok b, w')) :
    ∃ a, result = .ok a ∧ (f a).perform w = (.ok b, w') := by
  cases result with
  | ok a => exact ⟨a, rfl, h⟩
  | error e => exact absurd (congrArg Prod.fst h) nofun

theorem perform_bind_eq_error_iff {act : Act σ α} {f : α → Act σ β} {w w' : World σ}
    {e : Failure} :
    (act >>= f).perform w = (.error e, w') ↔
      act.perform w = (.error e, w') ∨
        ∃ a w₁, act.perform w = (.ok a, w₁) ∧ (f a).perform w₁ = (.error e, w') := by
  rw [perform_bind]
  rcases act.perform w with ⟨f | a, w₁⟩
  · simp
  · simp [and_assoc]

/-- What is made of each value can as well be made of all of them in the end. -/
theorem perform_forEach_bind_pure {γ : Type} {f : α → Act σ β} (g : β → γ) {xs : List α}
    {ys : List β} {w w' : World σ} (h : (forEach xs f).perform w = (.ok ys, w')) :
    (forEach xs fun x => f x >>= fun y => pure (g y)).perform w = (.ok (ys.map g), w') := by
  induction xs generalizing ys w with
  | nil =>
    obtain ⟨hys, rfl⟩ := Prod.mk.inj h
    rw [← Except.ok.inj hys]
    rfl
  | cons x rest ih =>
    rw [forEach, perform_bind_eq_ok_iff] at h
    obtain ⟨y, w₁, hx, h⟩ := h
    obtain ⟨others, w₂, hrest, h⟩ := perform_bind_eq_ok_iff.mp h
    obtain ⟨hys, rfl⟩ := Prod.mk.inj h
    rw [← Except.ok.inj hys, forEach, perform_bind_eq_ok_iff]
    refine ⟨g y, w₁, ?_, perform_bind_eq_ok_iff.mpr ⟨others.map g, w₂, ih hrest, rfl⟩⟩
    rw [perform_bind_pure, hx]
    rfl

-- ---------------------------------------------------------------------------
-- Views that acts keep
-- ---------------------------------------------------------------------------

/-- The act leaves the view of the world as it is, whether it succeeds or fails. -/
def Keeps {ν : Type} (view : World σ → ν) (act : Act σ α) : Prop :=
  ∀ w, view (act.perform w).2 = view w

section

variable {ν : Type} {view : World σ → ν}

theorem keeps_pure (a : α) : Keeps view (pure a : Act σ α) := fun _ => rfl

theorem keeps_throw (f : Failure) : Keeps view (throw f : Act σ α) := fun _ => rfl

theorem keeps_ofFailable (result : Except Failure α) :
    Keeps view (ofFailable result : Act σ α) := by
  cases result with
  | ok a => exact keeps_pure a
  | error f => exact keeps_throw f

theorem keeps_ofExcept (result : Except Error α) : Keeps view (ofExcept result : Act σ α) := by
  cases result with
  | ok a => exact keeps_pure a
  | error e => exact keeps_throw (.error e)

theorem keeps_ofOption (absent : Error) (value? : Option α) :
    Keeps view (ofOption absent value? : Act σ α) := by
  cases value? with
  | some a => exact keeps_pure a
  | none => exact keeps_throw (.error absent)

theorem Keeps.eq {act : Act σ α} (h : Keeps view act) {w w' : World σ} {result : Except Failure α}
    (hact : act.perform w = (result, w')) : view w' = view w := by
  rw [← h w, hact]

theorem Keeps.bind {act : Act σ α} {f : α → Act σ β} (h : Keeps view act)
    (hf : ∀ a, Keeps view (f a)) : Keeps view (act >>= f) := by
  intro w
  have hw := h w
  rw [perform_bind]
  rcases hact : act.perform w with ⟨e | a, w₁⟩
  · rw [hact] at hw
    exact hw
  · rw [hact] at hw
    exact (hf _ w₁).trans hw

theorem perform_attempt (act : Act σ α) (w : World σ) :
    act.attempt.perform w =
      match act.perform w with
      | (.ok a, w') => (.ok (.ok a), w')
      | (.error (.error e), w') => (.ok (.error e), w')
      | (.error .fault, w') => (.error .fault, w') := rfl

/-- An attempt fails only in a fault. -/
theorem attempt_failure {act : Act σ α} {w w' : World σ} {f : Failure}
    (h : act.attempt.perform w = (.error f, w')) : f = .fault := by
  rw [perform_attempt] at h
  rcases hact : act.perform w with ⟨(e | _) | a, w₁⟩ <;> rw [hact] at h <;> simp at h
  exact h.1.symm

/-- An attempt makes the world that the act makes. -/
theorem attempt_world (act : Act σ α) (w : World σ) :
    (act.attempt.perform w).2 = (act.perform w).2 := by
  rw [perform_attempt]
  rcases act.perform w with ⟨(e | _) | a, w₁⟩ <;> rfl

theorem Keeps.attempt {act : Act σ α} (h : Keeps view act) : Keeps view act.attempt := by
  intro w
  rw [attempt_world]
  exact h w

end

-- ---------------------------------------------------------------------------
-- Worlds that acts do not tell apart
-- ---------------------------------------------------------------------------

/-- In a related world the act gives the same and makes a related world. -/
def Respects (R : World σ → World σ → Prop) (act : Act σ α) : Prop :=
  ∀ ⦃w v w' : World σ⦄ ⦃result : Except Failure α⦄, R w v → act.perform w = (result, w') →
    ∃ v', act.perform v = (result, v') ∧ R w' v'

theorem Respects.attempt {R : World σ → World σ → Prop} {act : Act σ α} (h : Respects R act) :
    Respects R act.attempt := by
  intro w v w' result hv hresult
  rw [perform_attempt] at hresult
  rcases hact : act.perform w with ⟨(e | _) | a, w₁⟩
  all_goals
    rw [hact] at hresult
    obtain ⟨rfl, rfl⟩ := Prod.mk.inj hresult
    obtain ⟨v', hact', hv'⟩ := h hv hact
    exact ⟨v', by rw [perform_attempt, hact'], hv'⟩

-- ---------------------------------------------------------------------------
-- What acts ensure
-- ---------------------------------------------------------------------------

/-- Whatever the world, a value of the act has one property, and a failure has another. -/
def Ensures (Q : α → Prop) (E : Failure → Prop) (act : Act σ α) : Prop :=
  ∀ w, match act.perform w with
    | (.ok a, _) => Q a
    | (.error f, _) => E f

/-- The failures of the act have a property. -/
def FailsOnly (E : Failure → Prop) (act : Act σ α) : Prop :=
  Ensures (fun _ => True) E act

section

variable {Q Q' : α → Prop} {E : Failure → Prop} {R : β → Prop}

theorem Ensures.of_ok {act : Act σ α} (h : Ensures Q E act) {w w' : World σ} {a : α}
    (hact : act.perform w = (.ok a, w')) : Q a := by
  have hw := h w
  rwa [hact] at hw

theorem Ensures.of_error {act : Act σ α} (h : Ensures Q E act) {w w' : World σ} {f : Failure}
    (hact : act.perform w = (.error f, w')) : E f := by
  have hw := h w
  rwa [hact] at hw

theorem ensures_pure {a : α} (h : Q a) : Ensures Q E (pure a : Act σ α) := fun _ => h

theorem ensures_throw {f : Failure} (h : E f) : Ensures Q E (throw f : Act σ α) := fun _ => h

theorem ensures_fail {e : Error} (h : E (.error e)) : Ensures Q E (fail e : Act σ α) := fun _ => h

theorem ensures_ofExcept {result : Except Error α} (hok : ∀ a, result = .ok a → Q a)
    (herror : ∀ e, result = .error e → E (.error e)) :
    Ensures Q E (ofExcept result : Act σ α) := by
  cases result with
  | ok a => exact ensures_pure (hok a rfl)
  | error e => exact ensures_throw (herror e rfl)

theorem ensures_ofOption {absent : Error} {value? : Option α} (hsome : ∀ a ∈ value?, Q a)
    (hnone : E (.error absent)) : Ensures Q E (ofOption absent value? : Act σ α) := by
  cases value? with
  | some a => exact ensures_pure (hsome a rfl)
  | none => exact ensures_fail hnone

theorem Ensures.bind {act : Act σ α} {f : α → Act σ β} (h : Ensures Q E act)
    (hf : ∀ a, Q a → Ensures R E (f a)) : Ensures R E (act >>= f) := by
  intro w
  have hw := h w
  rw [perform_bind]
  rcases hact : act.perform w with ⟨e | a, w₁⟩
  · rw [hact] at hw
    exact hw
  · rw [hact] at hw
    exact hf a hw w₁

theorem Ensures.imp {act : Act σ α} (h : Ensures Q E act) (hQ : ∀ a, Q a → Q' a) :
    Ensures Q' E act := by
  intro w
  have hw := h w
  split
  · next hact =>
    rw [hact] at hw
    exact hQ _ hw
  · next hact =>
    rw [hact] at hw
    exact hw

theorem ensures_true (act : Act σ α) : Ensures (fun _ => True) (fun _ => True) act := by
  intro w
  split <;> trivial

/-- An attempt fails only in a fault. -/
theorem ensures_attempt (act : Act σ α) (h : E .fault) :
    Ensures (fun _ => True) E act.attempt := by
  intro w
  split
  · trivial
  · next hact =>
    rw [attempt_failure hact]
    exact h

end

end Act

-- ---------------------------------------------------------------------------
-- What draws give
-- ---------------------------------------------------------------------------

namespace Draw

variable {α β : Type}

theorem pure_inj {a b : α} : (pure a : Draw α) = pure b ↔ a = b := by
  refine ⟨fun h => ?_, fun h => by rw [h]⟩
  exact Except.ok.inj (congrArg (fun draw : Draw α => (draw.run.run { invented := 0 }).1) h)

theorem run_bind (draw : Draw α) (f : α → Draw β) (supply : Supply) :
    (draw >>= f).run.run supply =
      match draw.run.run supply with
      | (.ok a, supply') => (f a).run.run supply'
      | (.error e, supply') => (.error e, supply') := by
  rw [ExceptT.run_bind, StateT.run_bind]
  rcases draw.run.run supply with ⟨e | a, supply'⟩ <;> rfl

/-- Whatever the supply, a value of the draw has a property. -/
def Gives (Q : α → Prop) (draw : Draw α) : Prop :=
  ∀ supply, match draw.run.run supply with
    | (.ok a, _) => Q a
    | (.error _, _) => True

theorem gives_pure {Q : α → Prop} {a : α} (h : Q a) : Gives Q (pure a) := fun _ => h

theorem gives_throw {Q : α → Prop} (e : Error) : Gives Q (throw e : Draw α) := fun _ => trivial

theorem gives_true (draw : Draw α) : Gives (fun _ => True) draw := by
  intro supply
  split <;> trivial

theorem Gives.bind {Q : α → Prop} {R : β → Prop} {draw : Draw α} {f : α → Draw β}
    (h : Gives Q draw) (hf : ∀ a, Q a → Gives R (f a)) : Gives R (draw >>= f) := by
  intro supply
  have hsupply := h supply
  rw [run_bind]
  rcases hdraw : draw.run.run supply with ⟨e | a, supply'⟩
  · trivial
  · rw [hdraw] at hsupply
    exact hf a hsupply supply'

theorem Gives.imp {Q R : α → Prop} {draw : Draw α} (h : Gives Q draw) (hQ : ∀ a, Q a → R a) :
    Gives R draw := by
  intro supply
  have hsupply := h supply
  split
  · next hdraw =>
    rw [hdraw] at hsupply
    exact hQ _ hsupply
  · trivial

/-- What is known of what each element gives is put together along the list. -/
theorem gives_gather_of {Q : α → List β → Prop} {P : List α → List β → Prop}
    {f : α → Draw (List β)} (h : ∀ x, Gives (Q x) (f x)) (hnil : P [] [])
    (hcons : ∀ x rest here others, Q x here → P rest others → P (x :: rest) (here ++ others))
    (xs : List α) : Gives (P xs) (gather f xs) := by
  induction xs with
  | nil => exact gives_pure hnil
  | cons x rest ih =>
    refine (h x).bind fun here hhere => ih.bind fun others hothers => ?_
    exact gives_pure (hcons x rest here others hhere hothers)

theorem gives_gather {P : β → Prop} {f : α → Draw (List β)}
    (h : ∀ x, Gives (fun ys => ∀ y ∈ ys, P y) (f x)) (xs : List α) :
    Gives (fun ys => ∀ y ∈ ys, P y) (gather f xs) :=
  gives_gather_of (P := fun _ ys => ∀ y ∈ ys, P y) h (List.forall_mem_nil _)
    (fun _ _ _ _ hhere hothers => List.forall_mem_append.mpr ⟨hhere, hothers⟩) xs

/-- What comes of each element stands in what is gathered, in the order of the elements. -/
theorem gives_gather_sublist {g : α → List β} {f : α → Draw (List β)}
    (h : ∀ x, Gives (fun ys => (g x).Sublist ys) (f x)) (xs : List α) :
    Gives (fun ys => (xs.flatMap g).Sublist ys) (gather f xs) :=
  gives_gather_of (P := fun xs ys => (xs.flatMap g).Sublist ys) h (List.Sublist.refl [])
    (fun _ _ _ _ hhere hothers => hhere.append hothers) xs

-- ---------------------------------------------------------------------------
-- Draws that succeed, and draws that fail
-- ---------------------------------------------------------------------------

/-- Whatever the supply, the draw has a value, and the value has a property. -/
def Makes (Q : α → Prop) (draw : Draw α) : Prop :=
  ∀ supply, ∃ a supply', draw.run.run supply = (.ok a, supply') ∧ Q a

/-- Whatever the supply, the draw fails in the error. -/
def FailsIn (e : Error) (draw : Draw α) : Prop :=
  ∀ supply, ∃ supply', draw.run.run supply = (.error e, supply')

theorem makes_pure {Q : α → Prop} {a : α} (h : Q a) : Makes Q (pure a) :=
  fun supply => ⟨a, supply, rfl, h⟩

theorem makes_callId : Makes (fun id => ∃ random, id = Colloquy.callId random) callId :=
  fun supply => ⟨_, { supply with invented := supply.invented + 1 }, rfl, _, rfl⟩

theorem failsIn_throw (e : Error) : FailsIn e (throw e : Draw α) := fun supply => ⟨supply, rfl⟩

theorem Makes.bind {Q : α → Prop} {R : β → Prop} {draw : Draw α} {f : α → Draw β}
    (h : Makes Q draw) (hf : ∀ a, Q a → Makes R (f a)) : Makes R (draw >>= f) := by
  intro supply
  obtain ⟨a, supply₁, hdraw, ha⟩ := h supply
  rw [run_bind, hdraw]
  exact hf a ha supply₁

theorem FailsIn.bind {e : Error} {draw : Draw α} (h : FailsIn e draw) (f : α → Draw β) :
    FailsIn e (draw >>= f) := by
  intro supply
  obtain ⟨supply', hdraw⟩ := h supply
  exact ⟨supply', by rw [run_bind, hdraw]⟩

theorem Makes.bind_failsIn {e : Error} {Q : α → Prop} {draw : Draw α} {f : α → Draw β}
    (h : Makes Q draw) (hf : ∀ a, FailsIn e (f a)) : FailsIn e (draw >>= f) := by
  intro supply
  obtain ⟨a, supply₁, hdraw, -⟩ := h supply
  rw [run_bind, hdraw]
  exact hf a supply₁

/-- If each element makes something, what is gathered is made of as many parts in the same order. -/
theorem makes_gather {R : α → List β → Prop} {f : α → Draw (List β)} {xs : List α}
    (h : ∀ x ∈ xs, Makes (R x) (f x)) :
    Makes (fun ys => ∃ parts, List.Forall₂ R xs parts ∧ ys = parts.flatten) (gather f xs) := by
  induction xs with
  | nil => exact makes_pure ⟨[], .nil, rfl⟩
  | cons x rest ih =>
    rw [List.forall_mem_cons] at h
    refine h.1.bind fun here hhere => (ih h.2).bind fun others hothers => makes_pure ?_
    obtain ⟨parts, hparts, rfl⟩ := hothers
    exact ⟨here :: parts, .cons hhere hparts, rfl⟩

/-- The first element that fails decides, whatever comes after it. -/
theorem failsIn_gather {R : α → List β → Prop} {f : α → Draw (List β)} {before after : List α}
    {x : α} {e : Error} (h : ∀ y ∈ before, Makes (R y) (f y)) (hx : FailsIn e (f x)) :
    FailsIn e (gather f (before ++ x :: after)) := by
  induction before with
  | nil => exact hx.bind _
  | cons y before ih =>
    rw [List.forall_mem_cons] at h
    exact h.1.bind_failsIn fun here => (ih h.2).bind _

end Draw

/-- A draw is performed on the world's supply alone. -/
theorem Act.perform_ofDraw {σ α : Type} (draw : Draw α) (w : World σ) :
    (ofDraw draw : Act σ α).perform w =
      (ofExcept (draw.run.run w.toSupply).1).perform
        { w with toSupply := (draw.run.run w.toSupply).2 } := rfl

theorem Draw.Makes.perform_ofDraw {σ α : Type} {Q : α → Prop} {draw : Draw α} (h : draw.Makes Q)
    (w : World σ) : ∃ a, ((Act.ofDraw draw : Act σ α).perform w).1 = .ok a ∧ Q a := by
  obtain ⟨a, supply', hdraw, ha⟩ := h w.toSupply
  refine ⟨a, ?_, ha⟩
  rw [Act.perform_ofDraw, hdraw]
  rfl

theorem Draw.FailsIn.perform_ofDraw {σ α : Type} {e : Error} {draw : Draw α} (h : draw.FailsIn e)
    (w : World σ) : ((Act.ofDraw draw : Act σ α).perform w).1 = .error (.error e) := by
  obtain ⟨supply', hdraw⟩ := h w.toSupply
  rw [Act.perform_ofDraw, hdraw]
  rfl

/-- A function of what a draw gives. -/
theorem Act.perform_ofDraw_bind_pure {σ α β : Type} (draw : Draw α) (f : α → β) (w : World σ) :
    (ofDraw (draw >>= fun a => pure (f a)) : Act σ β).perform w =
      (((ofDraw draw : Act σ α).perform w).1.map f, ((ofDraw draw : Act σ α).perform w).2) := by
  rw [perform_ofDraw, perform_ofDraw, Draw.run_bind]
  rcases draw.run.run w.toSupply with ⟨e | a, supply⟩ <;> rfl

theorem Act.ensures_ofDraw {σ α : Type} {Q : α → Prop} {draw : Draw α} (h : draw.Gives Q) :
    Ensures Q (fun _ => True) (ofDraw draw : Act σ α) := by
  intro w
  have hsupply := h w.toSupply
  rw [perform_ofDraw]
  rcases hdraw : draw.run.run w.toSupply with ⟨e | a, supply⟩
  · trivial
  · rw [hdraw] at hsupply
    exact hsupply

end Colloquy
