import Mathlib.Data.List.Forall2
import Mathlib.Logic.Relation

/-! # Programs that ask an environment and go on with its answer

A request is answered or refused; a refusal is an error the program can catch.
-/

namespace Library

inductive Program (Q : Type) (A : Q → Type) (ε α : Type)
  | done (a : α)
  | fail (e : ε)
  | ask (q : Q) (resume : Except ε (A q) → Program Q A ε α)

namespace Program

variable {Q : Type} {A : Q → Type} {ε α β σ : Type}

def bind : Program Q A ε α → (α → Program Q A ε β) → Program Q A ε β
  | done a, f => f a
  | fail e, _ => fail e
  | ask q resume, f => ask q fun answer => bind (resume answer) f

def catchError : Program Q A ε α → (ε → Program Q A ε α) → Program Q A ε α
  | done a, _ => done a
  | fail e, handler => handler e
  | ask q resume, handler => ask q fun answer => catchError (resume answer) handler

def ofExcept : Except ε α → Program Q A ε α
  | .ok a => done a
  | .error e => fail e

def request (q : Q) : Program Q A ε (A q) := ask q ofExcept

def forEach {γ : Type} (body : γ → Program Q A ε α) : List γ → Program Q A ε (List α)
  | [] => done []
  | x :: items => bind (body x) fun a => bind (forEach body items) fun rest => done (a :: rest)

def attempt (p : Program Q A ε α) : Program Q A ε (Except ε α) := catchError (bind p fun a => done (.ok a)) fun e => done (.error e)

instance : Monad (Program Q A ε) where
  pure := done
  bind := bind

instance : MonadExceptOf ε (Program Q A ε) where
  throw := fail
  tryCatch := catchError

@[simp] theorem pure_eq (a : α) : (pure a : Program Q A ε α) = done a := rfl

@[simp] theorem throw_eq (e : ε) : (throw e : Program Q A ε α) = fail e := rfl

@[simp] theorem bind_eq (p : Program Q A ε α) (f : α → Program Q A ε β) : (p >>= f) = bind p f := rfl

@[simp] theorem map_eq (f : α → β) (p : Program Q A ε α) : f <$> p = bind p fun a => done (f a) := rfl

@[simp] theorem tryCatch_eq (p : Program Q A ε α) (handler : ε → Program Q A ε α) : tryCatch p handler = catchError p handler := rfl

variable {γ : Type}

theorem bind_assoc (p : Program Q A ε α) (f : α → Program Q A ε β) (g : β → Program Q A ε γ) :
    (p.bind f).bind g = p.bind fun a => (f a).bind g := by
  induction p with
  | done a => rfl
  | fail e => rfl
  | ask q resume ih => simp only [bind, ih]

section Run

variable (answer : σ → (q : Q) → Except ε (A q) × σ)

def run : Program Q A ε α → σ → Except ε α × σ
  | done a, s => (.ok a, s)
  | fail e, s => (.error e, s)
  | ask q resume, s => run (resume (answer s q).1) (answer s q).2

@[simp] theorem run_done (a : α) (s : σ) : run answer (done a) s = (.ok a, s) := rfl

@[simp] theorem run_fail (e : ε) (s : σ) : run answer (fail e : Program Q A ε α) s = (.error e, s) := rfl

theorem run_bind (p : Program Q A ε α) (f : α → Program Q A ε β) (s : σ) : run answer (bind p f) s = match run answer p s with
      | (.ok a, s') => run answer (f a) s'
      | (.error e, s') => (.error e, s') := by
  induction p generalizing s with
  | done a => rfl
  | fail e => rfl
  | ask q resume ih => exact ih (answer s q).1 (answer s q).2

theorem run_catchError (p : Program Q A ε α) (handler : ε → Program Q A ε α) (s : σ) : run answer (catchError p handler) s =
      match run answer p s with
      | (.ok a, s') => (.ok a, s')
      | (.error e, s') => run answer (handler e) s' := by
  induction p generalizing s with
  | done a => rfl
  | fail e => rfl
  | ask q resume ih => exact ih (answer s q).1 (answer s q).2

theorem run_request (q : Q) (s : σ) : run answer (request q) s = answer s q := by
  rcases hAnswer : answer s q with ⟨result, s'⟩
  cases result with
  | ok a => simp [request, run, hAnswer, ofExcept]
  | error e => simp [request, run, hAnswer, ofExcept]

end Run

abbrev Effect (Q : Type) (A : Q → Type) (ε σ : Type) := σ → (q : Q) → Except ε (A q) → σ → Prop

variable (effect : Effect Q A ε σ)

inductive Step : Program Q A ε α × σ → Program Q A ε α × σ → Prop
  | answer {q : Q} {resume : Except ε (A q) → Program Q A ε α} {s s' : σ} {result : Except ε (A q)}
      (h : effect s q result s') : Step (ask q resume, s) (resume result, s')

abbrev Steps : Program Q A ε α × σ → Program Q A ε α × σ → Prop := Relation.ReflTransGen (Step effect)

/-- `before` holds at every request of every run, and `after` of every outcome. -/
def Safe (before : σ → Q → Prop) (after : Except ε α → σ → Prop) : Program Q A ε α → σ → Prop
  | done a, s => after (.ok a) s
  | fail e, s => after (.error e) s
  | ask q resume, s => before s q ∧ ∀ result s', effect s q result s' → Safe before after (resume result) s'

variable {effect} {before : σ → Q → Prop} {after after' : Except ε α → σ → Prop}

variable {s : σ}

@[simp] theorem safe_done {a : α} : Safe effect before after (done a) s ↔ after (.ok a) s := Iff.rfl

@[simp] theorem safe_fail {e : ε} : Safe effect before after (fail e) s ↔ after (.error e) s := Iff.rfl

theorem safe_trivial (p : Program Q A ε α) (s : σ) : Safe effect (fun _ _ => True) (fun _ _ => True) p s := by
  induction p generalizing s with
  | done a => trivial
  | fail e => trivial
  | ask q resume ih => exact ⟨trivial, fun result s' _ => ih result s'⟩

theorem Safe.step {c c' : Program Q A ε α × σ} (h : Safe effect before after c.1 c.2)
    (hStep : Step effect c c') : Safe effect before after c'.1 c'.2 := by
  cases hStep with
  | answer hEffect => exact h.2 _ _ hEffect

theorem Safe.steps {c c' : Program Q A ε α × σ} (h : Safe effect before after c.1 c.2)
    (hSteps : Steps effect c c') : Safe effect before after c'.1 c'.2 := by
  induction hSteps with
  | refl => exact h
  | tail _ hStep ih => exact ih.step hStep

variable {p : Program Q A ε α}

theorem Safe.mono (h : Safe effect before after p s) (hAfter : ∀ outcome s', after outcome s' → after' outcome s') :
    Safe effect before after' p s := by
  induction p generalizing s with
  | done a => exact hAfter _ _ h
  | fail e => exact hAfter _ _ h
  | ask q resume ih =>
    obtain ⟨hBefore, hResume⟩ := h
    exact ⟨hBefore, fun result s' hEffect => ih result (hResume result s' hEffect)⟩

theorem Safe.weakenBefore {before' : σ → Q → Prop} (h : Safe effect before after p s)
    (hBefore : ∀ s' q, before s' q → before' s' q) : Safe effect before' after p s := by
  induction p generalizing s with
  | done a => exact h
  | fail e => exact h
  | ask q resume ih =>
    obtain ⟨hHere, hResume⟩ := h
    exact ⟨hBefore s q hHere, fun result s' hEffect => ih result (hResume result s' hEffect)⟩

theorem Safe.bind {f : α → Program Q A ε β} {post : Except ε β → σ → Prop} (h : Safe effect before after p s)
    (hOk : ∀ a s', after (.ok a) s' → Safe effect before post (f a) s') (hError : ∀ e s', after (.error e) s' → post (.error e) s') :
    Safe effect before post (p.bind f) s := by
  induction p generalizing s with
  | done a => exact hOk a s h
  | fail e => exact hError e s h
  | ask q resume ih =>
    obtain ⟨hBefore, hResume⟩ := h
    exact ⟨hBefore, fun result s' hEffect => ih result (hResume result s' hEffect)⟩

theorem Safe.catchError {handler : ε → Program Q A ε α} (h : Safe effect before after p s) (hOk : ∀ a s', after (.ok a) s' → after' (.ok a) s')
    (hError : ∀ e s', after (.error e) s' → Safe effect before after' (handler e) s') : Safe effect before after' (p.catchError handler) s := by
  induction p generalizing s with
  | done a => exact hOk a s h
  | fail e => exact hError e s h
  | ask q resume ih =>
    obtain ⟨hBefore, hResume⟩ := h
    exact ⟨hBefore, fun result s' hEffect => ih result (hResume result s' hEffect)⟩

theorem Safe.request {q : Q} {post : Except ε (A q) → σ → Prop} (hBefore : before s q)
    (hAfter : ∀ result s', effect s q result s' → post result s') : Safe effect before post (request q) s := by
  refine ⟨hBefore, ?_⟩
  intro result s' hEffect
  cases result with
  | ok a => exact hAfter _ _ hEffect
  | error e => exact hAfter _ _ hEffect

theorem Safe.attempt (h : Safe effect before after p s) :
    Safe effect before (fun outcome s' => ∃ result, outcome = .ok result ∧ after result s') p.attempt s := by
  have hResult : Safe effect before (fun outcome s' =>
      (∀ result, outcome = .ok result → after result s') ∧ ∀ e, outcome = .error e → after (.error e) s')
      (p.bind fun a => done (.ok a)) s := by
    refine h.bind ?_ ?_
    · intro a s' hAfter
      refine ⟨?_, nofun⟩
      rintro _ ⟨⟩
      exact hAfter
    · intro e s' hAfter
      refine ⟨nofun, ?_⟩
      rintro _ ⟨⟩
      exact hAfter
  refine hResult.catchError ?_ ?_
  · intro result s' hAfter
    exact ⟨result, rfl, hAfter.1 result rfl⟩
  · intro e s' hAfter
    exact ⟨.error e, rfl, hAfter.2 e rfl⟩

theorem forall₂_exists_left {R : α → β → Prop} {as : List α} {bs : List β} (h : List.Forall₂ R as bs) : ∀ b ∈ bs, ∃ a ∈ as, R a b := by
  induction h with
  | nil => simp
  | cons hFirst _ ih =>
    intro b hb
    obtain rfl | hb := List.mem_cons.mp hb
    · exact ⟨_, List.mem_cons_self, hFirst⟩
    · obtain ⟨a, ha, hR⟩ := ih b hb
      exact ⟨a, List.mem_cons_of_mem _ ha, hR⟩

variable {items : List γ} {body : γ → Program Q A ε α}

theorem Safe.forEach {invariant : σ → Prop} {R : γ → α → Prop} (hStart : invariant s) (hBody : ∀ x ∈ items, ∀ s', invariant s' →
      Safe effect before (fun outcome s'' => invariant s'' ∧ ∀ a, outcome = .ok a → R x a) (body x) s') :
    Safe effect before (fun outcome s' => invariant s' ∧ ∀ results, outcome = .ok results →
      List.Forall₂ R items results) (forEach body items) s := by
  induction items generalizing s with
  | nil =>
    refine ⟨hStart, ?_⟩
    rintro _ ⟨⟩
    exact .nil
  | cons x items ih =>
    refine (hBody x List.mem_cons_self s hStart).bind ?_ ?_
    · rintro a s' ⟨hInvariant, hRelated⟩
      refine (ih hInvariant fun y hy => hBody y (List.mem_cons_of_mem x hy)).bind ?_ ?_
      · rintro rest s'' ⟨hKept, hRest⟩
        refine ⟨hKept, ?_⟩
        rintro _ ⟨⟩
        exact .cons (hRelated a rfl) (hRest rest rfl)
      · rintro e s'' ⟨hKept, -⟩
        exact ⟨hKept, nofun⟩
    · rintro e s' ⟨hInvariant, -⟩
      exact ⟨hInvariant, nofun⟩

theorem Safe.run {answer : σ → (q : Q) → Except ε (A q) × σ} (h : Safe effect before after p s)
    (hAnswer : ∀ s q, effect s q (answer s q).1 (answer s q).2) : after (run answer p s).1 (run answer p s).2 := by
  induction p generalizing s with
  | done a => exact h
  | fail e => exact h
  | ask q resume ih => exact ih _ (h.2 _ _ (hAnswer s q))

theorem steps_run (p : Program Q A ε α) {answer : σ → (q : Q) → Except ε (A q) × σ}
    (hAnswer : ∀ s q, effect s q (answer s q).1 (answer s q).2) : Steps effect (p, s) (ofExcept (run answer p s).1, (run answer p s).2) := by
  induction p generalizing s with
  | done a => exact .refl
  | fail e => exact .refl
  | ask q resume ih => exact .head (.answer (hAnswer s q)) (ih _)

theorem safe_ofExcept {result : Except ε α} : Safe effect before after (ofExcept result) s ↔ after result s := by
  cases result <;> exact Iff.rfl

def Keeps (effect : Effect Q A ε σ) (before : σ → Q → Prop) (invariant : σ → Prop) (fact : α → Prop)
    (p : Program Q A ε α) : Prop := ∀ s, invariant s → Safe effect before (fun outcome s' => invariant s' ∧ ∀ a, outcome = .ok a → fact a) p s

section Keeps

variable {invariant : σ → Prop} {fact : α → Prop}

theorem Keeps.done {a : α} (h : fact a) : Keeps effect before invariant fact (done a) := by
  intro s hInvariant
  refine ⟨hInvariant, ?_⟩
  rintro _ ⟨⟩
  exact h

theorem Keeps.fail {e : ε} : Keeps effect before invariant fact (fail e) :=
  fun _ hInvariant => ⟨hInvariant, nofun⟩

theorem Keeps.ofExcept {result : Except ε α} (h : ∀ a, result = .ok a → fact a) : Keeps effect before invariant fact (ofExcept result) :=
  fun _ hInvariant => safe_ofExcept.mpr ⟨hInvariant, h⟩

theorem Keeps.weaken {fact' : α → Prop} (h : Keeps effect before invariant fact p) (hFact : ∀ a, fact a → fact' a) :
    Keeps effect before invariant fact' p :=
  fun s hInvariant => (h s hInvariant).mono fun _ _ hAfter => ⟨hAfter.1, fun a ha => hFact a (hAfter.2 a ha)⟩

theorem Keeps.reports (h : Keeps effect before invariant fact p) {s : σ} (hInvariant : invariant s) :
    Safe effect before (fun outcome _ => ∀ a, outcome = .ok a → fact a) p s := (h s hInvariant).mono fun _ _ hAfter => hAfter.2

theorem Keeps.bind {post : β → Prop} {f : α → Program Q A ε β} (h : Keeps effect before invariant fact p)
    (hRest : ∀ a, fact a → Keeps effect before invariant post (f a)) : Keeps effect before invariant post (p.bind f) := by
  intro s hInvariant
  refine (h s hInvariant).bind ?_ ?_
  · rintro a s' ⟨hKept, hFact⟩
    exact hRest a (hFact a rfl) s' hKept
  · rintro e s' ⟨hKept, -⟩
    exact ⟨hKept, nofun⟩

theorem Keeps.catchError {handler : ε → Program Q A ε α} (h : Keeps effect before invariant fact p)
    (hHandler : ∀ e, Keeps effect before invariant fact (handler e)) : Keeps effect before invariant fact (p.catchError handler) := by
  intro s hInvariant
  refine (h s hInvariant).catchError (fun _ _ hAfter => hAfter) ?_
  rintro e s' ⟨hKept, -⟩
  exact hHandler e s' hKept

theorem Keeps.attempt (h : Keeps effect before invariant fact p) : Keeps effect before invariant (fun _ => True) p.attempt := by
  intro s hInvariant
  refine (h s hInvariant).attempt.mono ?_
  rintro _ s' ⟨_, rfl, hKept, -⟩
  exact ⟨hKept, fun _ _ => trivial⟩

theorem Keeps.forEach (h : ∀ x ∈ items, Keeps effect before invariant fact (body x)) :
    Keeps effect before invariant (fun _ => True) (forEach body items) := by
  intro s hInvariant
  refine (Safe.forEach (R := fun _ a => fact a) hInvariant fun x hx s' hKept => h x hx s' hKept).mono ?_
  rintro _ _ ⟨hKept, -⟩
  exact ⟨hKept, fun _ _ => trivial⟩

theorem Keeps.forEachResult (h : ∀ x ∈ items, Keeps effect before invariant fact (body x)) :
    Keeps effect before invariant (fun results => ∀ a ∈ results, fact a) (Program.forEach body items) := by
  intro s hInvariant
  refine (Safe.forEach (R := fun _ a => fact a) hInvariant fun x hx s' hKept => h x hx s' hKept).mono ?_
  rintro _ _ ⟨hKept, hResults⟩
  refine ⟨hKept, fun results hOk a ha => ?_⟩
  obtain ⟨_, _, hFact⟩ := forall₂_exists_left (hResults results hOk) a ha
  exact hFact

theorem Keeps.admitted (h : Keeps effect before invariant fact p) {s' : σ} (hInvariant : invariant s) {q : Q}
    {resume : Except ε (A q) → Program Q A ε α} (hSteps : Steps effect (p, s) (ask q resume, s')) : before s' q :=
  (Safe.steps (h s hInvariant) hSteps).1

end Keeps

end Program

end Library
