import Cosmosh.Library.Program

/-! # Programs and what answers them -/

namespace Library.Program

variable {Q : Type} {A : Q → Type} {ε σ α β : Type} {effect : Effect Q A ε σ}

def counted (effect : Effect Q A ε σ) : Effect Q A ε (σ × Nat) := fun c q result c' =>
  effect c.1 q result c'.1 ∧ c'.2 = c.2 + 1

/-- No run sends more than `limit` requests. -/
def SendsAtMost (effect : Effect Q A ε σ) (limit : Nat) (p : Program Q A ε α) (s : σ) : Prop :=
  Safe (counted effect) (fun c _ => c.2 < limit) (fun _ _ => True) p (s, 0)

def Spends (effect : Effect Q A ε σ) (n : Nat) (after : Except ε α → σ → Prop) (p : Program Q A ε α) (s : σ) : Prop :=
  ∀ k limit, k + n ≤ limit →
    Safe (counted effect) (fun c _ => c.2 < limit) (fun outcome c => after outcome c.1 ∧ c.2 ≤ k + n) p (s, k)

variable {n m : Nat} {after after' : Except ε α → σ → Prop} {post : Except ε β → σ → Prop} {s : σ}

theorem Spends.mono {p : Program Q A ε α} (h : Spends effect n after p s) (hBound : n ≤ m)
    (hAfter : ∀ outcome s', after outcome s' → after' outcome s') : Spends effect m after' p s := by
  intro k limit hLimit
  refine (h k limit (by omega)).mono ?_
  rintro outcome ⟨s', k'⟩ ⟨hEnd, hCount⟩
  exact ⟨hAfter outcome s' hEnd, by omega⟩

theorem Spends.done {a : α} (h : after (.ok a) s) : Spends effect n after (done a) s := fun _ _ _ => ⟨h, Nat.le_add_right _ _⟩

theorem Spends.fail {e : ε} (h : after (.error e) s) : Spends effect n after (fail e) s := fun _ _ _ => ⟨h, Nat.le_add_right _ _⟩

theorem Spends.bind {p : Program Q A ε α} {f : α → Program Q A ε β} (h : Spends effect n after p s)
    (hOk : ∀ a s', after (.ok a) s' → Spends effect m post (f a) s') (hError : ∀ e s', after (.error e) s' → post (.error e) s') :
    Spends effect (n + m) post (p.bind f) s := by
  intro k limit hLimit
  refine (h k limit (by omega)).bind ?_ ?_
  · rintro a ⟨s', k'⟩ ⟨hEnd, hCount⟩
    refine (hOk a s' hEnd k' limit (by dsimp only at hCount; omega)).mono ?_
    rintro outcome ⟨s'', k''⟩ ⟨hPost, hCount'⟩
    exact ⟨hPost, by dsimp only at hCount hCount' ⊢; omega⟩
  · rintro e ⟨s', k'⟩ ⟨hEnd, hCount⟩
    exact ⟨hError e s' hEnd, by dsimp only at hCount ⊢; omega⟩

theorem Spends.sendsAtMost {p : Program Q A ε α} (h : Spends effect n after p s) : SendsAtMost effect n p s :=
  (h 0 n (by omega)).mono fun _ _ _ => trivial

theorem Safe.forget {before : σ × Nat → Q → Prop} {after : Except ε α → σ × Nat → Prop} {p : Program Q A ε α} {c : σ × Nat}
    (h : Safe (counted effect) before after p c) (hAfter : ∀ outcome c', after outcome c' → after' outcome c'.1) :
    Safe effect (fun _ _ => True) after' p c.1 := by
  induction p generalizing c with
  | done a => exact hAfter _ c h
  | fail e => exact hAfter _ c h
  | ask q resume ih =>
    refine ⟨trivial, fun result s' hEffect => ?_⟩
    exact ih result (c := (s', c.2 + 1)) (h.2 result (s', c.2 + 1) ⟨hEffect, rfl⟩)

theorem Spends.safe {p : Program Q A ε α} (h : Spends effect n after p s) : Safe effect (fun _ _ => True) after p s :=
  (h 0 n (by omega)).forget (c := (s, 0)) fun _ _ hEnd => hEnd.1

theorem Safe.front {before : σ → Q → Prop} {p : Program Q A ε α} {f : α → Program Q A ε β} {post : Except ε β → σ → Prop}
    (h : Safe effect before post (p.bind f) s) : Safe effect before (fun _ _ => True) p s := by
  induction p generalizing s with
  | done a => trivial
  | fail e => trivial
  | ask q resume ih => exact ⟨h.1, fun result s' hEffect => ih result (h.2 result s' hEffect)⟩

end Library.Program

namespace Library.Program

variable {Q : Type} {A : Q → Type} {ε α β σ : Type}

def willing (effect : Effect Q A ε σ) : Effect Q A ε σ := fun s q result s' =>
  effect s q result s' ∧ ((∃ e, result = .error e) → ∀ answer s'', ¬ effect s q (.ok answer) s'')

inductive Ends (effect : Effect Q A ε σ) : Program Q A ε α → σ → Except ε α → σ → Prop
  | done (a : α) (s : σ) : Ends effect (done a) s (.ok a) s
  | fail (e : ε) (s : σ) : Ends effect (fail e) s (.error e) s
  | ask {q : Q} {resume : Except ε (A q) → Program Q A ε α} {s s' s'' : σ} {result : Except ε (A q)} {outcome : Except ε α}
      (h : effect s q result s') (hRest : Ends effect (resume result) s' outcome s'') : Ends effect (ask q resume) s outcome s''

section Ends

variable {effect : Effect Q A ε σ} {s s' s'' : σ} {p : Program Q A ε α}

theorem Ends.request {q : Q} {result : Except ε (A q)} (h : effect s q result s') : Ends effect (Program.request q) s result s' := by
  refine .ask h ?_
  cases result with
  | ok a => exact .done a s'
  | error e => exact .fail e s'

theorem Ends.bind {f : α → Program Q A ε β} {a : α} {outcome : Except ε β} (h : Ends effect p s (.ok a) s') (hRest : Ends effect (f a) s' outcome s'') :
    Ends effect (p.bind f) s outcome s'' := by
  generalize hResult : Except.ok a = result at h
  induction h with
  | done a s =>
    cases hResult
    exact hRest
  | fail e s => cases hResult
  | ask hEffect _ ih => exact .ask hEffect (ih hRest hResult)

theorem Ends.catchError_ok {handler : ε → Program Q A ε α} {a : α} (h : Ends effect p s (.ok a) s') :
    Ends effect (p.catchError handler) s (.ok a) s' := by
  generalize hResult : Except.ok a = result at h ⊢
  induction h with
  | done a s => exact .done a s
  | fail e s => cases hResult
  | ask hEffect _ ih => exact .ask hEffect (ih hResult)

theorem Ends.catchError_error {handler : ε → Program Q A ε α} {e : ε} {outcome : Except ε α} (h : Ends effect p s (.error e) s')
    (hHandler : Ends effect (handler e) s' outcome s'') : Ends effect (p.catchError handler) s outcome s'' := by
  generalize hResult : Except.error e = result at h
  induction h with
  | done a s => cases hResult
  | fail e s =>
    cases hResult
    exact hHandler
  | ask hEffect _ ih => exact .ask hEffect (ih hHandler hResult)

theorem Ends.bind_error {f : α → Program Q A ε β} {e : ε} (h : Ends effect p s (.error e) s') : Ends effect (p.bind f) s (.error e) s' := by
  generalize hResult : Except.error e = result at h
  induction h with
  | done a s => cases hResult
  | fail e s =>
    cases hResult
    exact .fail _ s
  | ask hEffect _ ih => exact .ask hEffect (ih hResult)

theorem Safe.ends {before : σ → Q → Prop} {after : Except ε α → σ → Prop} {outcome : Except ε α} (h : Safe effect before after p s)
    (hEnds : Ends effect p s outcome s') : after outcome s' := by
  induction hEnds with
  | done a s => exact h
  | fail e s => exact h
  | ask hEffect _ ih => exact ih (h.2 _ _ hEffect)

end Ends

/-- Every run that returns ends as `ok` says, every run that fails as `error` says. -/
def Yields (effect : Effect Q A ε σ) (ok : α → σ → Prop) (error : ε → σ → Prop) (p : Program Q A ε α) (s : σ) : Prop :=
  Safe effect (fun _ _ => True) (fun outcome s' => match outcome with
    | .ok a => ok a s'
    | .error e => error e s') p s

section Yields

variable {effect : Effect Q A ε σ} {ok ok' : α → σ → Prop} {post : β → σ → Prop} {error error' : ε → σ → Prop} {s : σ} {p : Program Q A ε α}

theorem Yields.done {a : α} (h : ok a s) : Yields effect ok error (done a) s := h

theorem Yields.fail {e : ε} (h : error e s) : Yields effect ok error (fail e) s := h

theorem Yields.request {q : Q} {ok : A q → σ → Prop} (h : ∀ a s', effect s q (.ok a) s' → ok a s')
    (hError : ∀ e s', effect s q (.error e) s' → error e s') : Yields effect ok error (Program.request q) s := by
  refine Safe.request trivial ?_
  rintro (e | a) s' hEffect
  · exact hError e s' hEffect
  · exact h a s' hEffect

theorem Yields.bind {f : α → Program Q A ε β} (h : Yields effect ok error p s) (hRest : ∀ a s', ok a s' → Yields effect post error (f a) s') :
    Yields effect post error (p.bind f) s := Safe.bind h hRest fun _ _ hError => hError

theorem Yields.catchError {handler : ε → Program Q A ε α} (h : Yields effect ok error' p s)
    (hHandler : ∀ e s', error' e s' → Yields effect ok error (handler e) s') : Yields effect ok error (p.catchError handler) s :=
  Safe.catchError h (fun _ _ hOk => hOk) hHandler

theorem Yields.attempt (h : Yields effect ok error' p s) : Yields effect (fun result s' => (∀ a, result = .ok a → ok a s') ∧
    ∀ e, result = .error e → error' e s') error p.attempt s := by
  refine Yields.catchError (Yields.bind h ?_) ?_
  · intro a s' hOk
    refine Yields.done ⟨?_, nofun⟩
    rintro _ ⟨⟩
    exact hOk
  · intro e s' hError
    refine Yields.done ⟨nofun, ?_⟩
    rintro _ ⟨⟩
    exact hError

theorem Yields.mono (h : Yields effect ok error p s) (hOk : ∀ a s', ok a s' → ok' a s') (hError : ∀ e s', error e s' → error' e s') :
    Yields effect ok' error' p s := by
  refine Safe.mono h ?_
  rintro (e | a) s' hAfter
  · exact hError e s' hAfter
  · exact hOk a s' hAfter

theorem Yields.forEach {γ : Type} {items : List γ} {body : γ → Program Q A ε α} (invariant : List γ → List α → σ → Prop)
    (hStart : invariant [] [] s) (hBody : ∀ done x rest results, items = done ++ x :: rest → ∀ s', invariant done results s' →
      Yields effect (fun a s'' => invariant (done ++ [x]) (results ++ [a]) s'') error (body x) s') :
    Yields effect (fun results s' => invariant items results s') error (Program.forEach body items) s := by
  have hFrom : ∀ rest done results s, items = done ++ rest → invariant done results s →
      Yields effect (fun more s' => invariant items (results ++ more) s') error (Program.forEach body rest) s := by
    intro rest
    induction rest with
    | nil =>
      intro done results s hItems hHere
      rw [List.append_nil] at hItems
      refine Yields.done ?_
      rwa [hItems, List.append_nil]
    | cons x rest ih =>
      intro done results s hItems hHere
      refine Yields.bind (hBody done x rest results hItems s hHere) fun a s' hNext => ?_
      refine Yields.bind (ih (done ++ [x]) (results ++ [a]) s' (by rw [hItems, List.append_assoc, List.singleton_append]) hNext) fun more s'' hEnd => ?_
      refine Yields.done ?_
      rwa [List.append_assoc] at hEnd
  exact hFrom items [] [] s rfl hStart

end Yields

inductive PoolStep (effect : Effect Q A ε σ) : List (Program Q A ε α) × σ → List (Program Q A ε α) × σ → Prop
  | goesOn {before after : List (Program Q A ε α)} {p p' : Program Q A ε α} {s s' : σ} (h : Step effect (p, s) (p', s')) :
      PoolStep effect (before ++ p :: after, s) (before ++ p' :: after, s')

def Steady (effect : Effect Q A ε σ) (invariant : σ → Prop) (fact : α → Prop) : Program Q A ε α → Prop
  | done a => fact a
  | fail _ => True
  | ask q resume => ∀ s, invariant s → ∀ result s', effect s q result s' → invariant s' ∧ Steady effect invariant fact (resume result)

variable {effect : Effect Q A ε σ} {invariant : σ → Prop} {fact : α → Prop}

theorem Steady.bind {post : β → Prop} {p : Program Q A ε α} {f : α → Program Q A ε β} (h : Steady effect invariant fact p)
    (hRest : ∀ a, fact a → Steady effect invariant post (f a)) : Steady effect invariant post (p.bind f) := by
  induction p with
  | done a => exact hRest a h
  | fail e => trivial
  | ask q resume ih =>
    intro s hInvariant result s' hEffect
    obtain ⟨hKept, hResumed⟩ := h s hInvariant result s' hEffect
    exact ⟨hKept, ih result hResumed⟩

theorem Steady.catchError {p : Program Q A ε α} {handler : ε → Program Q A ε α} (h : Steady effect invariant fact p)
    (hHandler : ∀ e, Steady effect invariant fact (handler e)) : Steady effect invariant fact (p.catchError handler) := by
  induction p with
  | done a => exact h
  | fail e => exact hHandler e
  | ask q resume ih =>
    intro s hInvariant result s' hEffect
    obtain ⟨hKept, hResumed⟩ := h s hInvariant result s' hEffect
    exact ⟨hKept, ih result hResumed⟩

theorem Steady.request {q : Q} {fact : A q → Prop}
    (h : ∀ s, invariant s → ∀ result s', effect s q result s' → invariant s' ∧ ∀ a, result = .ok a → fact a) :
    Steady effect invariant fact (Program.request q) := by
  intro s hInvariant result s' hEffect
  obtain ⟨hKept, hFact⟩ := h s hInvariant result s' hEffect
  refine ⟨hKept, ?_⟩
  cases result with
  | ok a => exact hFact a rfl
  | error e => trivial

theorem Steady.step {p p' : Program Q A ε α} {s s' : σ} (h : Steady effect invariant fact p) (hInvariant : invariant s)
    (hStep : Step effect (p, s) (p', s')) : invariant s' ∧ Steady effect invariant fact p' := by
  cases hStep with
  | answer hEffect => exact h s hInvariant _ s' hEffect

theorem steady_pool {c c' : List (Program Q A ε α) × σ} (hSteps : Relation.ReflTransGen (PoolStep effect) c c')
    (hPrograms : ∀ p ∈ c.1, Steady effect invariant fact p) (hInvariant : invariant c.2) :
    invariant c'.2 ∧ ∀ p ∈ c'.1, Steady effect invariant fact p := by
  induction hSteps with
  | refl => exact ⟨hInvariant, hPrograms⟩
  | tail _ hStep ih =>
    cases hStep with
    | goesOn hStep =>
      obtain ⟨hKept, hAll⟩ := ih
      obtain ⟨hKept', hNext⟩ := (hAll _ (by simp)).step hKept hStep
      refine ⟨hKept', fun p hp => ?_⟩
      rw [List.mem_append, List.mem_cons] at hp
      obtain hBefore | rfl | hAfter := hp
      · exact hAll p (by simp [hBefore])
      · exact hNext
      · exact hAll p (by simp [hAfter])

end Library.Program
