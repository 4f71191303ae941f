import Mathlib.Logic.Function.Basic

/-!
# Threads that share mutexes

A thread's code is the list of what it has still to do: take a mutex, give one
back, or anything else (`act`). Threads, mutexes and acts are of any types.

What a thread holds can be read off its code: the mutexes it gives back before
it takes them again (`Holds`). In `Balanced` code a thread takes what it does not
hold and gives back what it holds, and then `Consistent` — the recorded owner of
a mutex is the thread that holds it — survives every step (`Consistent.lock`,
`Consistent.unlock`, `Consistent.replace`).

A thread that runs alone can still block itself, on a mutex that it holds (`run`).
Balanced code never does, and ends with nothing held (`run_balanced`).
-/

namespace QQChat

inductive Instr (μ α : Type) where
  | lock (m : μ)
  | unlock (m : μ)
  | act (a : α)
  deriving DecidableEq, Repr

/-- The same instruction over other acts. -/
def Instr.map {μ α β : Type} (f : α → β) : Instr μ α → Instr μ β
  | .lock m => .lock m
  | .unlock m => .unlock m
  | .act a => .act (f a)

namespace Locks

variable {τ μ α : Type} [DecidableEq τ] [DecidableEq μ]

/-- The mutex is given back before it is taken again. -/
def Holds (m : μ) : List (Instr μ α) → Bool
  | [] => false
  | .lock m' :: code => if m' = m then false else Holds m code
  | .unlock m' :: code => if m' = m then true else Holds m code
  | .act _ :: code => Holds m code

/-- What is taken is given back, and only that. -/
def Balanced : List (Instr μ α) → Bool
  | [] => true
  | .lock m :: code => Holds m code && Balanced code
  | .unlock m :: code => !Holds m code && Balanced code
  | .act _ :: code => Balanced code

/-- The owner of a mutex is the thread that holds it. -/
def Consistent (owner : μ → Option τ) (code : τ → List (Instr μ α)) : Prop :=
  ∀ m t, owner m = some t ↔ Holds m (code t) = true

/-- Thread `t` is at a mutex that `t'` owns. -/
def WaitsFor (owner : μ → Option τ) (code : τ → List (Instr μ α)) (t t' : τ) : Prop :=
  ∃ m rest, code t = .lock m :: rest ∧ owner m = some t'

section

variable {owner : μ → Option τ} {code : τ → List (Instr μ α)} {t : τ} {m : μ}
  {rest : List (Instr μ α)}

theorem holds_lock_of_ne {m' : μ} (h : m ≠ m') (code : List (Instr μ α)) :
    Holds m' (.lock m :: code) = Holds m' code :=
  if_neg h

theorem holds_unlock_of_ne {m' : μ} (h : m ≠ m') (code : List (Instr μ α)) :
    Holds m' (.unlock m :: code) = Holds m' code :=
  if_neg h

theorem Consistent.lock (h : Consistent owner code) (hfree : owner m = none)
    (hcode : code t = .lock m :: rest) (hbalanced : Balanced (code t) = true) :
    Consistent (Function.update owner m (some t)) (Function.update code t rest) := by
  rw [hcode, Balanced, Bool.and_eq_true] at hbalanced
  intro m' t'
  by_cases hm : m' = m
  · subst hm
    rw [Function.update_self]
    by_cases ht : t' = t
    · subst ht
      rw [Function.update_self]
      exact iff_of_true rfl hbalanced.1
    · rw [Function.update_of_ne ht, ← h m' t', hfree]
      exact ⟨fun heq => absurd (Option.some_inj.mp heq).symm ht, fun heq => nomatch heq⟩
  · rw [Function.update_of_ne hm, h m' t']
    by_cases ht : t' = t
    · subst ht
      rw [Function.update_self, hcode, holds_lock_of_ne (Ne.symm hm)]
    · rw [Function.update_of_ne ht]

theorem Consistent.unlock (h : Consistent owner code) (hcode : code t = .unlock m :: rest)
    (hbalanced : Balanced (code t) = true) :
    Consistent (Function.update owner m none) (Function.update code t rest) := by
  have howner : owner m = some t := by
    rw [h, hcode]
    exact if_pos rfl
  rw [hcode, Balanced, Bool.and_eq_true, Bool.not_eq_true'] at hbalanced
  intro m' t'
  by_cases hm : m' = m
  · subst hm
    rw [Function.update_self]
    by_cases ht : t' = t
    · subst ht
      rw [Function.update_self, hbalanced.1]
      exact iff_of_false (fun heq => nomatch heq) Bool.false_ne_true
    · rw [Function.update_of_ne ht, ← h m' t', howner]
      exact ⟨(fun heq => nomatch heq), fun heq => absurd (Option.some_inj.mp heq).symm ht⟩
  · rw [Function.update_of_ne hm, h m' t']
    by_cases ht : t' = t
    · subst ht
      rw [Function.update_self, hcode, holds_unlock_of_ne (Ne.symm hm)]
    · rw [Function.update_of_ne ht]

/-- Code may be replaced by code that holds the same. -/
theorem Consistent.replace (h : Consistent owner code)
    (hrest : ∀ m, Holds m rest = Holds m (code t)) :
    Consistent owner (Function.update code t rest) := by
  intro m' t'
  rw [h m' t']
  by_cases ht : t' = t
  · subst ht
    rw [Function.update_self, hrest]
  · rw [Function.update_of_ne ht]

end

/-! ## One thread alone -/

/-- What the code does when nobody else runs, from the mutexes that the thread holds
and a state that its acts change: `.error m` when it takes `m` while it holds it. -/
def run {σ : Type} (effect : σ → α → σ) (held : μ → Bool) (s : σ) :
    List (Instr μ α) → Except μ ((μ → Bool) × σ)
  | [] => .ok (held, s)
  | .lock m :: code =>
    if held m then .error m else run effect (Function.update held m true) s code
  | .unlock m :: code => run effect (Function.update held m false) s code
  | .act a :: code => run effect held (effect s a) code

theorem run_balanced {σ : Type} (effect : σ → α → σ) {code : List (Instr μ α)}
    {held : μ → Bool} (h : Balanced code = true) (hheld : ∀ m, Holds m code = held m) (s : σ) :
    ∃ s', run effect held s code = .ok (fun _ => false, s') := by
  induction code generalizing held s with
  | nil =>
    have hnone : held = fun _ => false := funext fun m => (hheld m).symm
    exact ⟨s, by rw [hnone]; rfl⟩
  | cons instr code ih =>
    cases instr with
    | lock m =>
      rw [Balanced, Bool.and_eq_true] at h
      have hfree : held m = false := by
        rw [← hheld m]
        exact if_pos rfl
      rw [run, hfree]
      refine ih h.2 (fun m' => ?_) s
      by_cases hm : m' = m
      · rw [hm, Function.update_self]
        exact h.1
      · rw [Function.update_of_ne hm, ← hheld m', holds_lock_of_ne (Ne.symm hm)]
    | unlock m =>
      rw [Balanced, Bool.and_eq_true, Bool.not_eq_true'] at h
      refine ih h.2 (fun m' => ?_) s
      by_cases hm : m' = m
      · rw [hm, Function.update_self]
        exact h.1
      · rw [Function.update_of_ne hm, ← hheld m', holds_unlock_of_ne (Ne.symm hm)]
    | act a => exact ih h hheld (effect s a)

/-! ## Other acts -/

theorem holds_map {β : Type} (f : α → β) (m : μ) (code : List (Instr μ α)) :
    Holds m (code.map (Instr.map f)) = Holds m code := by
  induction code with
  | nil => rfl
  | cons instr code ih =>
    cases instr with
    | act a => exact ih
    | _ => simp only [List.map_cons, Instr.map, Holds, ih]

theorem balanced_map {β : Type} (f : α → β) (code : List (Instr μ α)) :
    Balanced (code.map (Instr.map f)) = Balanced code := by
  induction code with
  | nil => rfl
  | cons instr code ih =>
    cases instr with
    | act a => exact ih
    | _ => simp only [List.map_cons, Instr.map, Balanced, holds_map, ih]

end Locks

end QQChat
