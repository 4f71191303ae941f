import Mathlib.Logic.Basic
import QQChat.Client.Lifecycle

/-!
# Whether descriptors are closed

When `disconnect` returns, nothing should be left of a connection: no worker, no
descriptor in `socket_fd_`, and every descriptor closed once (`Sound`). It is so as long
as every step is safe (`Tidy.sound`), and no longer: after a step that is not,
a descriptor stays behind or is closed twice by the time that `disconnect` returns
(`step_doomed`).
-/

namespace QQChat.Client.Lifecycle

open Trace

/-! ## What is expected -/

/-- Nothing is left of a connection. -/
structure Released (s : State) : Prop where
  worker : s.worker = none
  connected : s.connected = false
  socketFd : s.socketFd = none
  closed : ∀ fd < s.opened, s.closed.count fd = 1

/-- Whenever `disconnect` has returned. -/
def Sound (s : State) : Prop :=
  s.owner = .returned → Released s

/-! ## Safe runs -/

/-- What safe steps keep. -/
structure Tidy (s : State) : Prop where
  placed : Placed s
  accounted : Accounted s

section

variable {s s' : State} {e : Event}

theorem tidy_init : Tidy {} := by
  refine ⟨?_, ?_, ?_⟩
  · constructor <;> grind
  · exact fun fd _ => List.not_mem_nil
  · exact fun fd _ => rfl

theorem step_tidy (hs : Tidy s) (h : step s e = some s') (hsafe : Safe s e) : Tidy s' := by
  cases e with
  | call call =>
    refine ⟨placed_call hs.placed h, ?_⟩
    obtain ⟨hidle, heq⟩ := Option.ite_none_right_eq_some.mp h
    cases heq
    refine hs.accounted.frame rfl rfl ?_
    grind
  | owner => exact ⟨placed_owner hs.placed hsafe h, accounted_owner hs.placed hs.accounted h⟩
  | worker ok =>
    exact ⟨placed_worker hs.placed hsafe h, accounted_worker hs.placed hs.accounted h⟩

theorem Tidy.sound (hs : Tidy s) : Sound s := by
  intro hreturned
  have hjoined : s.owner.Joined := by
    rw [hreturned]
    trivial
  have hworker := hs.placed.joined hjoined
  have hfd := hs.placed.vacant hworker
  refine ⟨hworker, hs.placed.cleared hreturned, hfd, fun fd hlt => ?_⟩
  have hlive : ¬ s.Live fd := by
    rintro (hstore | ⟨hstored, _⟩)
    · rw [hworker] at hstore
      cases hstore
    · rw [hfd] at hstored
      cases hstored
  rw [hs.accounted.settled fd hlive, if_pos hlt]

end

/-! ## Runs that are not -/

/-- `disconnect` on its way out, past the load of `socket_fd_`. -/
@[grind]
def Owner.Leaving : Owner → Prop
  | .close _ => True
  | .reset => True
  | .join => True
  | .clear => True
  | _ => False

theorem Owner.Closing.leaving {o : Owner} (h : o.Closing) : o.Leaving := by
  cases o with
  | close fd => trivial
  | reset => trivial
  | _ => exact absurd h id

/-- `run` after `::connect` has succeeded. -/
@[grind]
def Worker.Connected : Worker → Prop
  | .connected => True
  | .loop => True
  | .recv => True
  | .left => True
  | .returned => True
  | _ => False

/-- How often a descriptor has been closed, or is about to be. -/
@[grind]
def State.closings (s : State) (fd : Nat) : Nat :=
  s.closed.count fd + (if s.owner = .close (some fd) then 1 else 0)
    + (if s.worker = some (.close (some fd)) then 1 else 0)

/-- The descriptor stays behind. -/
@[grind]
def State.Lost (s : State) : Prop :=
  (s.owner = .join ∨ s.owner = .clear) ∧ s.socketFd ≠ none
    ∧ ∀ w, s.worker = some w → w.Connected

/-- A descriptor is closed twice. -/
@[grind]
def State.Twice (s : State) : Prop :=
  ∃ fd < s.opened, 2 ≤ s.closings fd

/-- Something is wrong that will show when `disconnect` returns. -/
structure Doomed (s : State) : Prop where
  leaving : s.owner.Leaving
  joined : s.owner = .clear → s.worker = none
  broken : s.Lost ∨ s.Twice

section

variable {s s' : State} {e : Event}

/-- What `disconnect` loads is about to be closed by the worker, or was. -/
theorem twice_of_load (hs : Tidy s) {fd : Nat} (hfd : s.socketFd = some fd) {w : Worker}
    (hworker : s.worker = some w) (hclosing : w.Closing) :
    ({ s with owner := .close (some fd) } : State).Twice := by
  refine ⟨fd, hs.placed.stored fd hfd, ?_⟩
  have hloaded := hs.placed.workerLoaded
  have hsettled := hs.accounted.settled fd
  have hbound := hs.placed.stored fd hfd
  cases w <;> grind

/-- What the worker loads is about to be closed by `disconnect`, or was. -/
theorem twice_of_load_worker (hs : Tidy s) {fd : Nat} (hfd : s.socketFd = some fd)
    (hworker : s.worker = some .load) (hclosing : s.owner.Closing) :
    ({ s with worker := some (.close (some fd)) } : State).Twice := by
  refine ⟨fd, hs.placed.stored fd hfd, ?_⟩
  have hloaded := hs.placed.ownerLoaded
  have hsettled := hs.accounted.settled fd
  have hbound := hs.placed.stored fd hfd
  cases howner : s.owner <;> grind

theorem doomed_of_not_safe (hs : Tidy s) (h : step s e = some s') (hbroken : ¬ Safe s e) :
    Doomed s' := by
  cases e with
  | call call => exact absurd trivial hbroken
  | owner =>
    simp only [Safe, not_forall, not_not] at hbroken
    obtain ⟨hstored, hload, w, hworker, hclosing⟩ := hbroken
    obtain ⟨fd, hfd⟩ := Option.ne_none_iff_exists'.mp hstored
    simp only [step, ownerStep, hload, hfd, Option.some_inj] at h
    subst h
    refine ⟨trivial, fun hclear => ?_, .inr (twice_of_load hs hfd hworker hclosing)⟩
    cases hclear
  | worker ok =>
    simp only [Safe, not_forall, not_and_or, not_not] at hbroken
    obtain ⟨hstored, ⟨hconnect, rfl, hjoin⟩ | ⟨hload, hclosing⟩⟩ := hbroken
    · simp only [step, workerStep, hconnect, Option.some_inj] at h
      subst h
      refine ⟨?_, ?_, .inl ?_⟩ <;> grind
    · obtain ⟨fd, hfd⟩ := Option.ne_none_iff_exists'.mp hstored
      simp only [step, workerStep, hload, hfd, Option.some_inj] at h
      subst h
      have htwice := twice_of_load_worker hs hfd hload hclosing
      refine ⟨hclosing.leaving, fun hclear => ?_, .inr htwice⟩
      rw [show s.owner = .clear from hclear] at hclosing
      exact absurd hclosing id

/-- A step that neither closes nor forgets what was loaded. -/
theorem closings_le_of_frame {fd : Nat} (hclosed : s'.closed = s.closed)
    (howner : s.owner = .close (some fd) → s'.owner = .close (some fd))
    (hworker : s.worker = some (.close (some fd)) → s'.worker = some (.close (some fd))) :
    s.closings fd ≤ s'.closings fd := by
  unfold State.closings
  rw [hclosed]
  refine Nat.add_le_add (Nat.add_le_add_left ?_ _) ?_
  · split
    next h => exact Nat.le_of_eq (if_pos (howner h)).symm
    next => exact Nat.zero_le _
  · split
    next h => exact Nat.le_of_eq (if_pos (hworker h)).symm
    next => exact Nat.zero_le _

/-- The owner closes what it has loaded. -/
theorem closings_le_close {fd : Option Nat} (howner : s.owner = .close fd) (n : Nat) :
    s.closings n
      ≤ ({ s with closed := s.closed ++ fd.toList, owner := .reset } : State).closings n := by
  simp only [State.closings, howner, List.count_append, count_toList, Owner.close.injEq]
  omega

theorem closings_le_worker_close {fd : Option Nat} (hworker : s.worker = some (.close fd))
    (n : Nat) :
    s.closings n
      ≤ ({ s with closed := s.closed ++ fd.toList, worker := some .reset } : State).closings n := by
  simp only [State.closings, hworker, List.count_append, count_toList, Option.some_inj,
    Worker.close.injEq]
  omega

/-- What is about to be closed is closed in time, and nothing is taken back. -/
theorem closings_le (hleaving : s.owner.Leaving) (h : step s e = some s') :
    s.opened ≤ s'.opened ∧ ∀ fd, s.closings fd ≤ s'.closings fd := by
  cases e with
  | call call =>
    obtain ⟨hidle, _⟩ := Option.ite_none_right_eq_some.mp h
    rw [hidle] at hleaving
    exact absurd hleaving id
  | owner =>
    simp only [step, ownerStep] at h
    cases howner : s.owner with
    | close fd =>
      simp only [howner, Option.some_inj] at h
      subst h
      exact ⟨Nat.le_refl _, closings_le_close howner⟩
    | reset =>
      simp only [howner, Option.some_inj] at h
      subst h
      exact ⟨Nat.le_refl _, fun fd => closings_le_of_frame rfl (by simp [howner]) id⟩
    | join =>
      simp only [howner, Option.ite_none_right_eq_some, Option.some_inj] at h
      obtain ⟨hjoinable, rfl⟩ := h
      refine ⟨Nat.le_refl _, fun fd => closings_le_of_frame rfl (by simp [howner]) ?_⟩
      intro hclose
      rw [hclose] at hjoinable
      rcases hjoinable with hjoinable | hjoinable <;> cases hjoinable
    | clear =>
      simp only [howner, Option.some_inj] at h
      subst h
      exact ⟨Nat.le_refl _, fun fd => closings_le_of_frame rfl (by simp [howner]) id⟩
    | _ =>
      rw [howner] at hleaving
      exact absurd hleaving id
  | worker ok =>
    simp only [step, workerStep] at h
    cases hworker : s.worker with
    | none => simp [hworker] at h
    | some w =>
      cases w with
      | returned => simp [hworker] at h
      | socket =>
        simp only [hworker] at h
        split at h
        · cases h
          exact ⟨Nat.le_succ _, fun fd => closings_le_of_frame rfl id (by simp [hworker])⟩
        · cases h
          exact ⟨Nat.le_refl _, fun fd => closings_le_of_frame rfl id (by simp [hworker])⟩
      | close fd =>
        simp only [hworker, Option.some_inj] at h
        subst h
        exact ⟨Nat.le_refl _, closings_le_worker_close hworker⟩
      | _ =>
        simp only [hworker, Option.some_inj] at h
        subst h
        exact ⟨Nat.le_refl _, fun fd => closings_le_of_frame rfl id (by simp [hworker])⟩

theorem twice_step (hleaving : s.owner.Leaving) (hs : s.Twice) (h : step s e = some s') :
    s'.Twice := by
  obtain ⟨fd, hlt, hcount⟩ := hs
  obtain ⟨hopened, hclosings⟩ := closings_le hleaving h
  exact ⟨fd, Nat.lt_of_lt_of_le hlt hopened, Nat.le_trans hcount (hclosings fd)⟩

/-- Nobody takes a descriptor away that both threads are past. -/
theorem lost_step (hs : s.Lost) (h : step s e = some s') :
    s'.Lost ∨ (s'.owner = .returned ∧ s'.socketFd ≠ none) := by
  obtain ⟨howner, hstored, hconnected⟩ := hs
  cases e with
  | call call =>
    obtain ⟨hidle, _⟩ := Option.ite_none_right_eq_some.mp h
    rw [hidle] at howner
    rcases howner with howner | howner <;> cases howner
  | owner =>
    simp only [step, ownerStep] at h
    rcases howner with howner | howner
    · simp only [howner, Option.ite_none_right_eq_some, Option.some_inj] at h
      obtain ⟨_, rfl⟩ := h
      refine .inl ⟨.inr rfl, hstored, fun w hw => ?_⟩
      cases hw
    · simp only [howner, Option.some_inj] at h
      subst h
      exact .inr ⟨rfl, hstored⟩
  | worker ok =>
    simp only [step, workerStep] at h
    left
    cases hworker : s.worker with
    | none => simp [hworker] at h
    | some w =>
      have hw := hconnected w hworker
      cases w <;> simp only [hworker, Option.some_inj, reduceCtorEq] at h <;> grind

/-- Until `disconnect` returns. -/
theorem leaving_step (hs : s.owner.Leaving) (hjoined : s.owner = .clear → s.worker = none)
    (h : step s e = some s') :
    (s'.owner.Leaving ∧ (s'.owner = .clear → s'.worker = none))
      ∨ (s'.owner = .returned ∧ s'.worker = none) := by
  cases e with
  | call call =>
    obtain ⟨hidle, _⟩ := Option.ite_none_right_eq_some.mp h
    rw [hidle] at hs
    exact absurd hs id
  | owner =>
    simp only [step, ownerStep] at h
    cases howner : s.owner <;>
      simp only [howner, Option.ite_none_right_eq_some, Option.some_inj, reduceCtorEq] at h <;>
      grind
  | worker ok =>
    have howner : s'.owner = s.owner ∧ s.worker ≠ none := by
      simp only [step, workerStep] at h
      grind
    grind

theorem step_doomed (hs : Doomed s) (h : step s e = some s') (hsound : Sound s') : Doomed s' := by
  have hbroken : s'.Lost ∨ s'.Twice := by
    rcases hs.broken with hlost | htwice
    · rcases lost_step hlost h with hlost | ⟨hreturned, hstored⟩
      · exact .inl hlost
      · exact absurd (hsound hreturned).socketFd hstored
    · exact .inr (twice_step hs.leaving htwice h)
  rcases leaving_step hs.leaving hs.joined h with ⟨hleaving, hjoined⟩ | ⟨hreturned, hworker⟩
  · exact ⟨hleaving, hjoined, hbroken⟩
  · have hreleased := hsound hreturned
    rcases hbroken with ⟨howner, _, _⟩ | ⟨fd, hlt, hcount⟩
    · rw [hreturned] at howner
      rcases howner with howner | howner <;> cases howner
    · have hone := hreleased.closed fd hlt
      simp only [State.closings, hreturned, hworker, hone] at hcount
      simp at hcount

theorem Doomed.not_idle (hs : Doomed s) : s.owner ≠ .idle := by
  intro hidle
  have hleaving := hs.leaving
  rw [hidle] at hleaving
  exact hleaving

end

/-- **Descriptors are accounted for exactly as long as every step is safe**: in a run of
safe steps, whenever `disconnect` has returned; and in a run that ends outside a call,
only if it is one. -/
theorem lifecycle_iff (es : List Event) :
    (EachStep step (fun s e _ => Safe s e) {} es → Always step Sound {} es)
      ∧ ∀ s, exec step {} es = some s → s.owner = .idle → Always step Sound {} es →
        EachStep step (fun s e _ => Safe s e) {} es := by
  refine ⟨Always.of_eachStep Tidy.sound step_tidy tidy_init, fun s h hidle hsound => ?_⟩
  exact EachStep.of_always step_tidy doomed_of_not_safe step_doomed Doomed.not_idle tidy_init h
    hidle hsound

/-- The client connects and receives, and `disconnect` closes the descriptor under the
worker in `recv`. -/
def connection : List Event :=
  .call .connect :: List.replicate 7 .owner ++ List.replicate 9 (.worker true)
    ++ .call .disconnect :: List.replicate 5 .owner
    ++ [.worker false, .worker false, .owner, .owner]

/-- Its steps are safe, and nothing is left of it. -/
theorem lifecycle_iff_connection : Always step Sound {} connection
    ∧ (exec step {} connection).map (fun s => (s.owner, s.socketFd, s.opened, s.closed))
      = some (.returned, none, 1, [0]) :=
  ⟨(lifecycle_iff connection).1 (by decide), by decide⟩

/-- The owner disconnects while the worker has a descriptor and not yet stored it, and
the server accepts. -/
def disconnectDuringConnect : List Event :=
  .call .connect :: List.replicate 7 .owner ++ [.worker true, .worker true]
    ++ .call .disconnect :: [.owner, .owner]
    ++ List.replicate 6 (.worker true) ++ [.owner, .owner]

/-- The descriptor is still in `socket_fd_` when `disconnect` has returned. -/
theorem descriptor_left_behind :
    ((exec step {} disconnectDuringConnect).map fun s => (s.owner, s.socketFd, s.opened, s.closed))
        = some (.returned, some 0, 1, [])
      ∧ ¬ Always step Sound {} disconnectDuringConnect := by
  have hrun : ((exec step {} disconnectDuringConnect).map fun s =>
      (s.owner, s.socketFd, s.opened, s.closed)) = some (.returned, some 0, 1, []) := by decide
  refine ⟨hrun, fun hsound => ?_⟩
  obtain ⟨s, hs, hfinal⟩ := Option.map_eq_some_iff.mp hrun
  injection hfinal with hreturned hrest
  injection hrest with hfd _
  have hlast := always_iff.mp hsound disconnectDuringConnect [] s (List.append_nil _).symm hs
  have hnone := (hlast hreturned).socketFd
  rw [hfd] at hnone
  cases hnone

end QQChat.Client.Lifecycle
