import QQChat.Client.Threads

/-!
# Where the client's threads deadlock

A worker that delivers something is on its way from `callback_mutex_` (or from
nothing, for a status) to `g_mutex`; a JNI call is on its way from `g_mutex` to
`callback_mutex_`, or to the end of the worker. `Deadlock` is that each waits for
the other (`deadlock_iff`).

A step leads there in two ways (`step_deadlock_iff`). A JNI call that will wait
for the worker, or for a `callback_mutex_` that the worker holds, takes
`g_mutex` while the worker stands at a `notify_*` function; or the worker comes to
one while such a call is already waiting.
-/

namespace QQChat.Client

open Trace Locks

namespace Threads

/-- The UI thread waits for a mutex of the worker's, or for the worker's end. -/
def UiWaits (s : Threads) : Prop :=
  WaitsFor s.owner s.code .ui .worker
    ∨ ((∃ rest, s.code .ui = .act .join :: rest) ∧ ¬ s.Joinable)

/-- Each thread waits for the other. -/
def Deadlock (s : Threads) : Prop :=
  s.UiWaits ∧ WaitsFor s.owner s.code .worker .ui

/-- The worker stands at a `notify_*` function. -/
def AtNotify (s : Threads) : Prop :=
  ∃ rest, s.code .worker = .lock .g :: rest

/-- The UI thread stands at the join of `disconnect`. -/
def AtJoin (s : Threads) : Prop :=
  ∃ rest, s.code .ui = .act .join :: rest

/-- The UI thread stands at `callback_mutex_`, to store a callback. -/
def AtRequest (s : Threads) : Prop :=
  ∃ rest, s.code .ui = .lock .callback :: rest

/-- The step does not bring the two together. A JNI call that goes on to the join,
or to a `callback_mutex_` that the worker holds, does not take `g_mutex` while the
worker is at a `notify_*` function; the worker reports no status while the UI
thread is at the join, and calls no callback while it is at the join or at
`callback_mutex_`. -/
def Safe (s : Threads) : ThreadEvent → Prop
  | .run .ui => ∀ rest, s.code .ui = .lock .g :: rest → s.AtNotify →
      rest.head? ≠ some (.act .join)
      ∧ (rest.head? = some (.lock .callback) → s.owner .callback ≠ some .worker)
  | .run .worker => ∀ slot rest, s.code .worker = .act (.invoke slot) :: rest →
      s.callbacks slot = true → ¬ s.AtJoin ∧ ¬ s.AtRequest
  | .failed => ¬ s.AtJoin
  | .connected => ¬ s.AtJoin
  | .left => ¬ s.AtJoin
  | _ => True

section

variable {s s' : Threads}

theorem Placed.uiCode (h : s.Placed) : UiCode (s.code .ui) :=
  h.codeOf .ui

theorem Placed.workerCode (h : s.Placed) : WorkerCode (s.code .worker) :=
  h.codeOf .worker

/-- At the join or at `callback_mutex_`, the UI thread holds `g_mutex` and nothing
else. -/
theorem holds_of_atJoin {code rest : Code} (h : UiCode code) (hcode : code = .act .join :: rest) :
    Holds .g code = true ∧ Holds .callback code = false := by
  subst hcode
  cases h <;> exact ⟨rfl, rfl⟩

theorem holds_of_atRequest {code rest : Code} (h : UiCode code)
    (hcode : code = .lock .callback :: rest) : Holds .g code = true := by
  subst hcode
  cases h
  rfl

/-- A UI thread about to take a mutex does not hold `callback_mutex_`. -/
theorem holds_of_lock {code rest : Code} {m : Mutex} (h : UiCode code)
    (hcode : code = .lock m :: rest) : Holds .callback code = false := by
  subst hcode
  cases h <;> rfl

/-- **The only deadlocks**: the worker is at a `notify_*` function, and the UI thread
at the join, or at `callback_mutex_` with the worker holding it. -/
theorem deadlock_iff (h : s.Placed) : s.Deadlock ↔
    s.AtNotify ∧ (s.AtJoin ∨ s.AtRequest ∧ s.owner .callback = some .worker) := by
  constructor
  · intro ⟨hui, m, rest, hworker, howner⟩
    cases m with
    | g =>
      refine ⟨⟨rest, hworker⟩, ?_⟩
      rcases hui with ⟨m', rest', hcode, howner'⟩ | ⟨hjoin, _⟩
      · cases m' with
        | g =>
          rw [howner] at howner'
          cases howner'
        | callback => exact Or.inr ⟨⟨rest', hcode⟩, howner'⟩
      · exact Or.inl hjoin
    | callback =>
      -- A UI thread that holds `callback_mutex_` does not wait for anything.
      have hholds := (h.consistent .callback .ui).mp howner
      rcases hui with ⟨m', rest', hcode, _⟩ | ⟨⟨rest', hcode⟩, _⟩
      · rw [holds_of_lock h.uiCode hcode] at hholds
        cases hholds
      · rw [(holds_of_atJoin h.uiCode hcode).2] at hholds
        cases hholds
  · intro ⟨⟨rest, hworker⟩, hui⟩
    rcases hui with ⟨rest', hcode⟩ | ⟨⟨rest', hcode⟩, howner⟩
    · have howner := (h.consistent .g .ui).mpr (holds_of_atJoin h.uiCode hcode).1
      refine ⟨Or.inr ⟨⟨rest', hcode⟩, fun hjoinable => ?_⟩, .g, rest, hworker, howner⟩
      rw [h.done hjoinable] at hworker
      cases hworker
    · have howner' := (h.consistent .g .ui).mpr (holds_of_atRequest h.uiCode hcode)
      exact ⟨Or.inl ⟨.callback, rest', hcode, howner⟩, .g, rest, hworker, howner'⟩

theorem atJoin_goOn_worker (code : Code) : (s.goOn .worker code).AtJoin ↔ s.AtJoin := by
  unfold AtJoin
  rw [code_goOn_of_ne s (by decide)]

theorem atRequest_goOn_worker (code : Code) : (s.goOn .worker code).AtRequest ↔ s.AtRequest := by
  unfold AtRequest
  rw [code_goOn_of_ne s (by decide)]

/-- The worker comes to a `notify_*` function with no mutex: it reports a status. -/
theorem deadlock_notify_iff {phase : Phase} (h : s.Placed) (hidle : s.code .worker = [])
    (h' : Placed { s.goOn .worker notify with phase }) :
    Deadlock { s.goOn .worker notify with phase } ↔ s.AtJoin := by
  have howner : s.owner .callback ≠ some .worker := by
    intro heq
    have hholds := (h.consistent .callback .worker).mp heq
    rw [hidle] at hholds
    cases hholds
  have hnotify : AtNotify { s.goOn .worker notify with phase } :=
    ⟨[.unlock .g], code_goOn_self s .worker notify⟩
  rw [deadlock_iff h', and_iff_right hnotify]
  refine (or_iff_left fun hrequest => howner hrequest.2).trans ?_
  exact atJoin_goOn_worker notify

/-- The worker comes to a `notify_*` function from `handle_packet`. -/
theorem deadlock_invoke_iff {slot : Slot} {rest : Code} (h : s.Placed)
    (hcode : s.code .worker = .act (.invoke slot) :: rest)
    (h' : Placed (s.goOn .worker (notify ++ rest))) :
    (s.goOn .worker (notify ++ rest)).Deadlock ↔ s.AtJoin ∨ s.AtRequest := by
  have howner : s.owner .callback = some .worker := by
    refine (h.consistent .callback .worker).mpr ?_
    have hworker := h.workerCode
    rw [hcode] at hworker ⊢
    cases hworker
    rfl
  have hnotify : (s.goOn .worker (notify ++ rest)).AtNotify :=
    ⟨.unlock .g :: rest, code_goOn_self s .worker _⟩
  rw [deadlock_iff h', and_iff_right hnotify, atJoin_goOn_worker, atRequest_goOn_worker]
  exact or_congr_right (and_iff_left howner)

theorem runInstr_code {t : Thread} {instr : Instr Mutex Act} {rest : Code}
    (hrun : s.runInstr t instr rest = some s')
    (hinvoke : ∀ slot, instr = .act (.invoke slot) → s.callbacks slot = false) :
    s'.code = (s.goOn t rest).code := by
  cases instr with
  | lock m =>
    obtain ⟨_, heq⟩ := Option.ite_none_right_eq_some.mp hrun
    cases heq
    rfl
  | unlock m =>
    cases hrun
    rfl
  | act a =>
    cases a with
    | setCallback slot =>
      cases hrun
      rfl
    | invoke slot =>
      cases hrun
      rw [if_neg (Bool.not_eq_true _ ▸ hinvoke slot rfl)]
    | spawn =>
      cases hrun
      rfl
    | join =>
      obtain ⟨_, heq⟩ := Option.ite_none_right_eq_some.mp hrun
      cases heq
      rfl

/-- Past `g_mutex`, a JNI call does not come to the join or to `callback_mutex_`. -/
theorem head?_of_ui {instr : Instr Mutex Act} {rest : Code} (h : UiCode (instr :: rest))
    (hg : instr ≠ .lock .g) :
    rest.head? ≠ some (.act .join) ∧ rest.head? ≠ some (.lock .callback) := by
  cases h with
  | sendMessage => exact absurd rfl hg
  | disconnect => exact absurd rfl hg
  | connect => exact absurd rfl hg
  | request slot => exact absurd rfl hg
  | returning => exact ⟨(fun heq => nomatch heq), fun heq => nomatch heq⟩
  | disconnecting => exact ⟨(fun heq => nomatch heq), fun heq => nomatch heq⟩
  | connecting => exact ⟨(fun heq => nomatch heq), fun heq => nomatch heq⟩
  | spawning => exact ⟨(fun heq => nomatch heq), fun heq => nomatch heq⟩
  | requesting slot => exact ⟨(fun heq => nomatch heq), fun heq => nomatch heq⟩
  | storing slot => exact ⟨(fun heq => nomatch heq), fun heq => nomatch heq⟩
  | stored => exact ⟨(fun heq => nomatch heq), fun heq => nomatch heq⟩

/-- Nothing but a packet's callback brings a worker in a function to `g_mutex`. -/
theorem head?_of_worker {instr : Instr Mutex Act} {rest : Code}
    (h : WorkerCode (instr :: rest)) : rest.head? ≠ some (.lock .g) := by
  cases h <;> exact fun heq => nomatch heq

theorem step_deadlock_run_ui {instr : Instr Mutex Act} {rest : Code} (h : s.Placed)
    (h' : s'.Placed) (hcode : s.code .ui = instr :: rest)
    (hrun : s.runInstr .ui instr rest = some s') : s'.Deadlock ↔ ¬ s.Safe (.run .ui) := by
  have hui : UiCode (instr :: rest) := hcode ▸ h.uiCode
  have hcode' : s'.code = (s.goOn .ui rest).code := by
    refine runInstr_code hrun fun slot heq => ?_
    rw [heq] at hui
    cases hui
  have hnext : s'.code .ui = rest := by rw [hcode', code_goOn_self]
  have hnotify : s'.AtNotify ↔ s.AtNotify := by
    unfold AtNotify
    rw [hcode', code_goOn_of_ne s (by decide)]
  rw [deadlock_iff h', hnotify, AtJoin, AtRequest, hnext, ← List.head?_eq_some_iff,
    ← List.head?_eq_some_iff]
  by_cases hg : instr = .lock .g
  · -- With `g_mutex` the thread closes the circle if it has to wait right behind it.
    subst hg
    obtain ⟨_, heq⟩ := Option.ite_none_right_eq_some.mp hrun
    have howner : s'.owner .callback = s.owner .callback := by
      cases heq
      exact Function.update_of_ne (by decide : Mutex.callback ≠ .g) (some .ui) s.owner
    rw [howner]
    constructor
    · intro ⟨hat, hwaits⟩ hsafe
      obtain ⟨hjoin, hrequest⟩ := hsafe rest hcode hat
      rcases hwaits with hhead | ⟨hhead, howned⟩
      · exact hjoin hhead
      · exact hrequest hhead howned
    · intro hunsafe
      by_contra hnone
      refine hunsafe fun rest' hcode'' hat => ?_
      rw [hcode] at hcode''
      cases hcode''
      exact ⟨fun hhead => hnone ⟨hat, Or.inl hhead⟩,
        fun hhead howned => hnone ⟨hat, Or.inr ⟨hhead, howned⟩⟩⟩
  · obtain ⟨hjoin, hrequest⟩ := head?_of_ui hui hg
    refine iff_of_false ?_ fun hunsafe => hunsafe fun rest' hcode'' _ => ?_
    · intro ⟨_, hwaits⟩
      rcases hwaits with hhead | ⟨hhead, _⟩
      · exact hjoin hhead
      · exact hrequest hhead
    · rw [hcode] at hcode''
      cases hcode''
      exact absurd rfl hg

theorem step_deadlock_run_worker {instr : Instr Mutex Act} {rest : Code} (h : s.Placed)
    (h' : s'.Placed) (hcode : s.code .worker = instr :: rest)
    (hrun : s.runInstr .worker instr rest = some s') :
    s'.Deadlock ↔ ¬ s.Safe (.run .worker) := by
  by_cases hinvoke : ∃ slot, instr = .act (.invoke slot) ∧ s.callbacks slot = true
  · -- The callback takes the worker to `g_mutex`, with `callback_mutex_` in its hands.
    obtain ⟨slot, rfl, hset⟩ := hinvoke
    have hs' : s' = s.goOn .worker (notify ++ rest) := by
      cases hrun
      rw [if_pos hset]
    subst hs'
    rw [deadlock_invoke_iff h hcode h']
    constructor
    · intro hwaits hsafe
      obtain ⟨hjoin, hrequest⟩ := hsafe slot rest hcode hset
      exact hwaits.elim hjoin hrequest
    · intro hunsafe
      by_contra hnone
      refine hunsafe fun _ _ _ _ => ?_
      exact ⟨fun hjoin => hnone (Or.inl hjoin), fun hrequest => hnone (Or.inr hrequest)⟩
  · have hcode' : s'.code = (s.goOn .worker rest).code := by
      refine runInstr_code hrun fun slot heq => ?_
      exact Bool.eq_false_iff.mpr fun hset => hinvoke ⟨slot, heq, hset⟩
    have hnotify : ¬ s'.AtNotify := by
      rw [AtNotify, hcode', code_goOn_self, ← List.head?_eq_some_iff]
      exact head?_of_worker (hcode ▸ h.workerCode)
    rw [deadlock_iff h']
    refine iff_of_false (fun hdead => hnotify hdead.1) fun hunsafe => hunsafe ?_
    intro slot rest' hcode'' hset
    rw [hcode] at hcode''
    cases hcode''
    exact absurd ⟨slot, rfl, hset⟩ hinvoke

/-- **Which steps lead into a deadlock.** -/
theorem step_deadlock_iff {e : ThreadEvent} (h : s.Placed) (hstep : threadStep s e = some s') :
    s'.Deadlock ↔ ¬ s.Safe e := by
  have h' := step_placed h hstep
  cases e with
  | call native =>
    -- A call starts at `g_mutex`, where no JNI call waits for the worker's.
    obtain ⟨_, rfl⟩ := threadStep_call.mp hstep
    rw [deadlock_iff h', AtJoin, AtRequest, code_goOn_self]
    refine iff_of_false ?_ fun hunsafe => hunsafe trivial
    intro ⟨_, hwaits⟩
    rcases hwaits with ⟨_, hcode⟩ | ⟨⟨_, hcode⟩, _⟩ <;> cases native <;> cases hcode
  | failed =>
    obtain ⟨⟨hidle, _⟩, rfl⟩ := threadStep_failed.mp hstep
    exact (deadlock_notify_iff h hidle h').trans not_not.symm
  | connected =>
    obtain ⟨⟨hidle, _⟩, rfl⟩ := threadStep_connected.mp hstep
    exact (deadlock_notify_iff h hidle h').trans not_not.symm
  | left =>
    obtain ⟨⟨hidle, _⟩, rfl⟩ := threadStep_left.mp hstep
    exact (deadlock_notify_iff h hidle h').trans not_not.symm
  | packet slot =>
    obtain ⟨_, rfl⟩ := threadStep_packet.mp hstep
    rw [deadlock_iff h', AtNotify, code_goOn_self]
    refine iff_of_false ?_ fun hunsafe => hunsafe trivial
    intro ⟨⟨_, hcode⟩, _⟩
    cases hcode
  | returned =>
    obtain ⟨⟨hidle, _⟩, rfl⟩ := threadStep_returned.mp hstep
    rw [deadlock_iff h']
    refine iff_of_false ?_ fun hunsafe => hunsafe trivial
    intro ⟨⟨_, hcode⟩, _⟩
    rw [show s.code .worker = _ from hcode] at hidle
    cases hidle
  | run t =>
    obtain ⟨instr, rest, hcode, hrun⟩ := threadStep_run.mp hstep
    cases t with
    | ui => exact step_deadlock_run_ui h h' hcode hrun
    | worker => exact step_deadlock_run_worker h h' hcode hrun

theorem not_deadlock_init : ¬ Deadlock {} := by
  rw [deadlock_iff placed_init]
  intro ⟨⟨_, hcode⟩, _⟩
  cases hcode

end

end Threads

/-- **The client does not deadlock exactly as long as its steps are safe.** -/
theorem deadlockFree_iff (evs : List ThreadEvent) :
    Always threadStep (fun s => ¬ s.Deadlock) {} evs
      ↔ EachStep threadStep (fun s e _ => s.Safe e) {} evs := by
  rw [always_iff_eachStep]
  refine (and_iff_right Threads.not_deadlock_init).trans ?_
  refine eachStep_iff (E := fun _ => True) (I := Threads.Placed) (J := fun _ => True) ?_ ?_ ?_
    (fun _ _ => trivial) Threads.placed_init trivial
  · exact fun _ hplaced hstep => Threads.step_placed hplaced hstep
  · exact fun _ _ _ _ _ => trivial
  · intro s e s' _ hplaced _ hstep
    rw [Threads.step_deadlock_iff hplaced hstep, not_not]

/-- The UI thread connects, the worker reports it, and the UI thread disconnects.
The worker leaves its loop, and has to report that too. -/
def disconnectWhileReading : List ThreadEvent :=
  [.call .nativeConnect, .run .ui, .run .ui, .run .ui, .run .ui,
    .connected, .run .worker, .run .worker,
    .call .nativeDisconnect, .run .ui, .left]

/-- The UI thread waits for the worker, which waits for `g_mutex`. -/
theorem deadlock_disconnectWhileReading :
    ¬ Always threadStep (fun s => ¬ s.Deadlock) {} disconnectWhileReading := by
  intro h
  have hrun : (exec threadStep {} disconnectWhileReading).map
      (fun s => (s.code .ui, s.code .worker, s.owner .g, decide s.Joinable))
        = some ([.act .join, .unlock .g], notify, some .ui, false) := by decide
  obtain ⟨s, hs, hfinal⟩ := Option.map_eq_some_iff.mp hrun
  injection hfinal with hui hrest
  injection hrest with hworker hrest
  injection hrest with howner hjoinable
  refine always_iff.mp h _ [] s (List.append_nil _).symm hs ⟨Or.inr ⟨⟨_, hui⟩, ?_⟩, ?_⟩
  · exact of_decide_eq_false hjoinable
  · exact ⟨.g, _, hworker, howner⟩

/-- An answer arrives while the UI thread is sending a request: each holds the mutex
that the other one needs. -/
def answerDuringRequest : List ThreadEvent :=
  [.call .nativeConnect, .run .ui, .run .ui, .run .ui, .run .ui,
    .connected, .run .worker, .run .worker, .packet .messageCallback, .run .worker,
    .call .nativeLogin, .run .ui, .run .worker]

example : (exec threadStep {} answerDuringRequest).map (fun s =>
    ((s.code .ui).head?, s.owner .g, (s.code .worker).head?, s.owner .callback))
      = some (some (.lock .callback), some .ui, some (.lock .g), some .worker) := by decide

end QQChat.Client
