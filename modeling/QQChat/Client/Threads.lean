import QQChat.Lib.Locks
import QQChat.Lib.Trace

/-!
# The client's two threads

The thread that calls the JNI functions (`native-lib.cpp`) and the worker that
reads from the server (`ChatClient::run` in `chat_client.cpp`). They share
`g_mutex`, taken by every JNI function and by the eight `notify_*` functions, and
`callback_mutex_`, taken by whoever stores a callback and by `handle_packet`
around the call of one; `disconnect` waits for the worker to return.

Mirroring notes:
- A function is the list of what it does with mutexes, callbacks and the worker;
  a `lock_guard` is a lock at its place and an unlock at the end of its scope.
- What the sockets deliver is chosen with each step: whether the worker
  connects, the packets it handles (those that decode, for any callback), and
  when it leaves the loop.
- `nativeInit` has run: the client exists, its status and message callbacks are
  set, and the Java object is there. The status callback is called without
  `callback_mutex_`.
- A `notify_*` function holds `g_mutex` across the call into Java; that the call
  returns is part of the step that gives the mutex back.

The two are taken in both orders, and the worker is waited for with `g_mutex`
held: `deadlockFree_iff` says which steps lead into a deadlock.
-/

namespace QQChat.Client

open Trace Locks

inductive Thread where
  | ui
  | worker
  deriving DecidableEq, Repr

/-- `g_mutex` and `callback_mutex_`. -/
inductive Mutex where
  | g
  | callback
  deriving DecidableEq, Repr

/-- The members that hold the callbacks for packets. -/
inductive Slot where
  | loginCallback
  | messageCallback
  | friendListCallback
  | registerCallback
  | securityQuestionCallback
  | resetPasswordCallback
  | versionCheckCallback
  deriving DecidableEq, Repr

inductive Act where
  | setCallback (slot : Slot)
  /-- `if (callback) callback(..)`. -/
  | invoke (slot : Slot)
  /-- `worker_thread_ = std::thread(..)`. -/
  | spawn
  /-- `if (worker_thread_.joinable()) worker_thread_.join()`. -/
  | join
  deriving DecidableEq, Repr

abbrev Code := List (Instr Mutex Act)

/-! ## The functions -/

/-- Any of `notify_status`, `notify_login`, `notify_message`, `notify_friend_list`,
`notify_register`, `notify_security_question`, `notify_reset_password` and
`notify_version_check`. -/
def notify : Code :=
  [.lock .g, .unlock .g]

/-- `ChatClient::handle_packet` for a packet that decodes. -/
def handlePacket (slot : Slot) : Code :=
  [.lock .callback, .act (.invoke slot), .unlock .callback]

/-- The members of `ChatClient` that send a request and store a callback for its
answer: `login`, `get_friend_list`, `register_user`, `get_security_question`,
`reset_password` and `check_version`. -/
def request (slot : Slot) : Code :=
  [.lock .callback, .act (.setCallback slot), .unlock .callback]

def disconnect : Code :=
  [.act .join]

def connect : Code :=
  disconnect ++ [.act .spawn]

def sendMessage : Code :=
  []

/-- A JNI function around a member of `ChatClient`. -/
def jni (member : Code) : Code :=
  .lock .g :: member ++ [.unlock .g]

inductive NativeCall where
  | nativeConnect
  | nativeDisconnect
  | nativeLogin
  | nativeSendMessage
  | nativeGetFriendList
  | nativeRegister
  | nativeGetSecurityQuestion
  | nativeResetPassword
  | nativeCheckVersion
  deriving DecidableEq, Repr

def NativeCall.code : NativeCall → Code
  | .nativeConnect => jni connect
  | .nativeDisconnect => jni disconnect
  | .nativeLogin => jni (request .loginCallback)
  | .nativeSendMessage => jni sendMessage
  | .nativeGetFriendList => jni (request .friendListCallback)
  | .nativeRegister => jni (request .registerCallback)
  | .nativeGetSecurityQuestion => jni (request .securityQuestionCallback)
  | .nativeResetPassword => jni (request .resetPasswordCallback)
  | .nativeCheckVersion => jni (request .versionCheckCallback)

/-! ## The steps -/

/-- How far `worker_thread_` is. -/
inductive Phase where
  /-- There is no thread to join. -/
  | absent
  /-- In `run`, before the first status. -/
  | starting
  /-- In `read_loop`. -/
  | reading
  /-- Reporting the last status. -/
  | closing
  /-- It has returned. -/
  | finished
  deriving DecidableEq, Repr

structure Threads where
  /-- What each thread has still to do of the function it is in. -/
  code : Thread → Code := fun _ => []
  owner : Mutex → Option Thread := fun _ => none
  phase : Phase := .absent
  callbacks : Slot → Bool := fun slot => slot = .messageCallback

inductive ThreadEvent where
  /-- The UI thread calls a JNI function. -/
  | call (native : NativeCall)
  /-- The worker fails to connect, and says so. -/
  | failed
  | connected
  | packet (slot : Slot)
  /-- The worker leaves `read_loop`. -/
  | left
  | returned
  /-- A thread goes on with the function it is in. -/
  | run (t : Thread)
  deriving DecidableEq, Repr

namespace Threads

/-- A thread goes on with `code`. -/
def goOn (s : Threads) (t : Thread) (code : Code) : Threads :=
  { s with code := Function.update s.code t code }

/-- The worker is done, or was never there. -/
def Joinable (s : Threads) : Prop :=
  s.phase = .absent ∨ s.phase = .finished

instance (s : Threads) : Decidable s.Joinable :=
  inferInstanceAs (Decidable (_ ∨ _))

/-- What the next instruction does; `none` while it has to wait. -/
def runInstr (s : Threads) (t : Thread) (instr : Instr Mutex Act) (rest : Code) :
    Option Threads :=
  match instr with
  | .lock m =>
    if s.owner m = none then
      some { s.goOn t rest with owner := Function.update s.owner m (some t) }
    else none
  | .unlock m => some { s.goOn t rest with owner := Function.update s.owner m none }
  | .act (.setCallback slot) =>
    some { s.goOn t rest with callbacks := Function.update s.callbacks slot true }
  | .act (.invoke slot) => some (s.goOn t (if s.callbacks slot then notify ++ rest else rest))
  | .act .spawn => some { s.goOn t rest with phase := .starting }
  | .act .join => if s.Joinable then some { s.goOn t rest with phase := .absent } else none

end Threads

def threadStep (s : Threads) (e : ThreadEvent) : Option Threads :=
  match e with
  | .call native => if s.code .ui = [] then some (s.goOn .ui native.code) else none
  | .failed =>
    if s.code .worker = [] ∧ s.phase = .starting then
      some { s.goOn .worker notify with phase := .closing }
    else none
  | .connected =>
    if s.code .worker = [] ∧ s.phase = .starting then
      some { s.goOn .worker notify with phase := .reading }
    else none
  | .packet slot =>
    if s.code .worker = [] ∧ s.phase = .reading then some (s.goOn .worker (handlePacket slot))
    else none
  | .left =>
    if s.code .worker = [] ∧ s.phase = .reading then
      some { s.goOn .worker notify with phase := .closing }
    else none
  | .returned =>
    if s.code .worker = [] ∧ s.phase = .closing then some { s with phase := .finished } else none
  | .run t =>
    match s.code t with
    | [] => none
    | instr :: rest => s.runInstr t instr rest

/-! ## What the steps do -/

section

variable {s s' : Threads}

theorem threadStep_call {native : NativeCall} : threadStep s (.call native) = some s' ↔
    s.code .ui = [] ∧ s' = s.goOn .ui native.code := by
  simp only [threadStep, Option.ite_none_right_eq_some, Option.some_inj, eq_comm (b := s')]

theorem threadStep_failed : threadStep s .failed = some s' ↔
    (s.code .worker = [] ∧ s.phase = .starting)
      ∧ s' = { s.goOn .worker notify with phase := .closing } := by
  simp only [threadStep, Option.ite_none_right_eq_some, Option.some_inj, eq_comm (b := s')]

theorem threadStep_connected : threadStep s .connected = some s' ↔
    (s.code .worker = [] ∧ s.phase = .starting)
      ∧ s' = { s.goOn .worker notify with phase := .reading } := by
  simp only [threadStep, Option.ite_none_right_eq_some, Option.some_inj, eq_comm (b := s')]

theorem threadStep_packet {slot : Slot} : threadStep s (.packet slot) = some s' ↔
    (s.code .worker = [] ∧ s.phase = .reading) ∧ s' = s.goOn .worker (handlePacket slot) := by
  simp only [threadStep, Option.ite_none_right_eq_some, Option.some_inj, eq_comm (b := s')]

theorem threadStep_left : threadStep s .left = some s' ↔
    (s.code .worker = [] ∧ s.phase = .reading)
      ∧ s' = { s.goOn .worker notify with phase := .closing } := by
  simp only [threadStep, Option.ite_none_right_eq_some, Option.some_inj, eq_comm (b := s')]

theorem threadStep_returned : threadStep s .returned = some s' ↔
    (s.code .worker = [] ∧ s.phase = .closing) ∧ s' = { s with phase := .finished } := by
  simp only [threadStep, Option.ite_none_right_eq_some, Option.some_inj, eq_comm (b := s')]

theorem threadStep_run {t : Thread} : threadStep s (.run t) = some s' ↔
    ∃ instr rest, s.code t = instr :: rest ∧ s.runInstr t instr rest = some s' := by
  simp only [threadStep]
  cases s.code t with
  | nil => exact ⟨(fun h => nomatch h), fun ⟨_, _, h, _⟩ => nomatch h⟩
  | cons instr rest =>
    constructor
    · intro h
      exact ⟨instr, rest, rfl, h⟩
    · intro ⟨_, _, hcons, h⟩
      cases hcons
      exact h

end

/-! ## Where the threads can be -/

/-- What is left of a JNI function, from its call to its return. -/
inductive UiCode : Code → Prop
  | idle : UiCode []
  | returning : UiCode [.unlock .g]
  | sendMessage : UiCode (jni sendMessage)
  | disconnect : UiCode (jni disconnect)
  | disconnecting : UiCode (disconnect ++ [.unlock .g])
  | connect : UiCode (jni connect)
  | connecting : UiCode (connect ++ [.unlock .g])
  | spawning : UiCode [.act .spawn, .unlock .g]
  | request (slot : Slot) : UiCode (jni (request slot))
  | requesting (slot : Slot) : UiCode (request slot ++ [.unlock .g])
  | storing (slot : Slot) : UiCode [.act (.setCallback slot), .unlock .callback, .unlock .g]
  | stored : UiCode [.unlock .callback, .unlock .g]

/-- What is left of a notification, or of a packet. -/
inductive WorkerCode : Code → Prop
  | idle : WorkerCode []
  | notify : WorkerCode notify
  | notified : WorkerCode [.unlock .g]
  | packet (slot : Slot) : WorkerCode (handlePacket slot)
  | invoking (slot : Slot) : WorkerCode [.act (.invoke slot), .unlock .callback]
  | notifyLocked : WorkerCode (Client.notify ++ [.unlock .callback])
  | notifiedLocked : WorkerCode [.unlock .g, .unlock .callback]
  | invoked : WorkerCode [.unlock .callback]

theorem UiCode.balanced {code : Code} (h : UiCode code) : Balanced code = true := by
  cases h <;> rfl

theorem WorkerCode.balanced {code : Code} (h : WorkerCode code) : Balanced code = true := by
  cases h <;> rfl

theorem UiCode.of_call (native : NativeCall) : UiCode native.code := by
  cases native with
  | nativeConnect => exact .connect
  | nativeDisconnect => exact .disconnect
  | nativeSendMessage => exact .sendMessage
  | _ => exact .request _

/-- The rest of a JNI function is what is left of one. -/
theorem UiCode.tail {instr : Instr Mutex Act} {rest : Code} (h : UiCode (instr :: rest)) :
    UiCode rest := by
  cases h with
  | returning => exact .idle
  | sendMessage => exact .returning
  | disconnect => exact .disconnecting
  | disconnecting => exact .returning
  | connect => exact .connecting
  | connecting => exact .spawning
  | spawning => exact .returning
  | request slot => exact .requesting slot
  | requesting slot => exact .storing slot
  | storing slot => exact .stored
  | stored => exact .returning

theorem WorkerCode.tail {instr : Instr Mutex Act} {rest : Code}
    (h : WorkerCode (instr :: rest)) : WorkerCode rest := by
  cases h with
  | notify => exact .notified
  | notified => exact .idle
  | packet slot => exact .invoking slot
  | invoking slot => exact .invoked
  | notifyLocked => exact .notifiedLocked
  | notifiedLocked => exact .invoked
  | invoked => exact .idle

def CodeOf : Thread → Code → Prop
  | .ui => UiCode
  | .worker => WorkerCode

theorem CodeOf.balanced {t : Thread} {code : Code} (h : CodeOf t code) : Balanced code = true := by
  cases t with
  | ui => exact UiCode.balanced h
  | worker => exact WorkerCode.balanced h

theorem CodeOf.tail {t : Thread} {instr : Instr Mutex Act} {rest : Code}
    (h : CodeOf t (instr :: rest)) : CodeOf t rest := by
  cases t with
  | ui => exact UiCode.tail h
  | worker => exact WorkerCode.tail h

namespace Threads

@[simp] theorem code_goOn_self (s : Threads) (t : Thread) (code : Code) :
    (s.goOn t code).code t = code :=
  Function.update_self ..

@[simp] theorem code_goOn_of_ne (s : Threads) {t t' : Thread} (h : t' ≠ t) (code : Code) :
    (s.goOn t code).code t' = s.code t' :=
  Function.update_of_ne h ..

/-- Both threads are in their functions, a mutex is owned by the thread whose code
gives it back, and a worker that can be joined has nothing left to do. -/
structure Placed (s : Threads) : Prop where
  codeOf : ∀ t, CodeOf t (s.code t)
  consistent : Consistent s.owner s.code
  done : s.Joinable → s.code .worker = []

theorem placed_init : Placed {} where
  codeOf t := by
    cases t with
    | ui => exact UiCode.idle
    | worker => exact WorkerCode.idle
  consistent := fun _ _ => iff_of_false (fun h => nomatch h) Bool.false_ne_true
  done := fun _ => rfl

section

variable {s s' : Threads} {t : Thread} {code : Code}

theorem Placed.codeOf_goOn (h : s.Placed) (hcode : CodeOf t code) (t' : Thread) :
    CodeOf t' ((s.goOn t code).code t') := by
  by_cases ht : t' = t
  · subst ht
    rw [code_goOn_self]
    exact hcode
  · rw [code_goOn_of_ne s ht]
    exact h.codeOf t'

/-- A thread with something left to do has code to run, so the worker is not done. -/
theorem Placed.done_goOn (h : s.Placed) (hcode : t = .worker → s.code .worker ≠ [])
    (hjoinable : s.Joinable) : (s.goOn t code).code .worker = [] := by
  cases t with
  | ui =>
    rw [code_goOn_of_ne s (by decide)]
    exact h.done hjoinable
  | worker => exact absurd (h.done hjoinable) (hcode rfl)

theorem Placed.goOn (h : s.Placed) (hcode : CodeOf t code)
    (hholds : ∀ m, Holds m code = Holds m (s.code t))
    (hdone : t = .worker → ¬ s.Joinable) : (s.goOn t code).Placed where
  codeOf := h.codeOf_goOn hcode
  consistent := h.consistent.replace hholds
  done hjoinable := by
    cases t with
    | ui =>
      rw [code_goOn_of_ne s (by decide)]
      exact h.done hjoinable
    | worker => exact absurd hjoinable (hdone rfl)

end

section

variable {s s' : Threads}

theorem Placed.runInstr {t : Thread} {instr : Instr Mutex Act} {rest : Code} (h : s.Placed)
    (hcode : s.code t = instr :: rest) (hrun : s.runInstr t instr rest = some s') :
    s'.Placed := by
  have hall : CodeOf t (instr :: rest) := hcode ▸ h.codeOf t
  have hleft : t = .worker → s.code .worker ≠ [] := by
    intro ht
    rw [← ht, hcode]
    exact List.cons_ne_nil _ _
  cases instr with
  | lock m =>
    obtain ⟨hfree, heq⟩ := Option.ite_none_right_eq_some.mp hrun
    cases heq
    exact ⟨h.codeOf_goOn hall.tail, h.consistent.lock hfree hcode (hcode ▸ hall.balanced),
      h.done_goOn hleft⟩
  | unlock m =>
    cases hrun
    exact ⟨h.codeOf_goOn hall.tail, h.consistent.unlock hcode (hcode ▸ hall.balanced),
      h.done_goOn hleft⟩
  | act a =>
    have hholds : ∀ m, Holds m rest = Holds m (s.code t) := by
      intro m
      rw [hcode]
      rfl
    cases a with
    | setCallback slot =>
      cases hrun
      exact ⟨h.codeOf_goOn hall.tail, h.consistent.replace hholds, h.done_goOn hleft⟩
    | invoke slot =>
      cases hrun
      -- Only the worker calls back, and then goes through the `notify_*` function.
      cases t with
      | ui => cases hall
      | worker =>
        refine h.goOn ?_ (fun m => ?_) fun _ hjoinable => hleft rfl (h.done hjoinable)
        · cases hall
          split
          · exact WorkerCode.notifyLocked
          · exact WorkerCode.invoked
        · rw [← hholds m]
          cases hall
          split
          · cases m <;> rfl
          · rfl
    | spawn =>
      cases hrun
      refine ⟨h.codeOf_goOn hall.tail, h.consistent.replace hholds, fun hjoinable => ?_⟩
      rcases hjoinable with hphase | hphase <;> cases hphase
    | join =>
      -- A worker that can be joined has run to its end.
      obtain ⟨hjoinable, heq⟩ := Option.ite_none_right_eq_some.mp hrun
      cases heq
      exact ⟨h.codeOf_goOn hall.tail, h.consistent.replace hholds,
        fun _ => h.done_goOn hleft hjoinable⟩

theorem step_placed {e : ThreadEvent} (h : s.Placed) (hstep : threadStep s e = some s') :
    s'.Placed := by
  have hnotify : ∀ {phase}, s.code .worker = [] → phase ≠ .absent → phase ≠ .finished →
      Placed { s.goOn .worker notify with phase } := by
    intro phase hidle habsent hfinished
    refine ⟨h.codeOf_goOn WorkerCode.notify, h.consistent.replace fun m => ?_, fun hjoinable => ?_⟩
    · rw [hidle]
      cases m <;> rfl
    · rcases hjoinable with hphase | hphase
      · exact absurd hphase habsent
      · exact absurd hphase hfinished
  cases e with
  | call native =>
    obtain ⟨hidle, rfl⟩ := threadStep_call.mp hstep
    refine h.goOn (UiCode.of_call native) (fun m => ?_) fun heq => nomatch heq
    rw [hidle]
    cases native <;> cases m <;> rfl
  | failed =>
    obtain ⟨⟨hidle, _⟩, rfl⟩ := threadStep_failed.mp hstep
    exact hnotify hidle (by decide) (by decide)
  | connected =>
    obtain ⟨⟨hidle, _⟩, rfl⟩ := threadStep_connected.mp hstep
    exact hnotify hidle (by decide) (by decide)
  | packet slot =>
    obtain ⟨⟨hidle, hphase⟩, rfl⟩ := threadStep_packet.mp hstep
    refine h.goOn (WorkerCode.packet slot) (fun m => ?_) fun _ hjoinable => ?_
    · rw [hidle]
      cases m <;> rfl
    · rcases hjoinable with hphase' | hphase' <;> rw [hphase] at hphase' <;> cases hphase'
  | left =>
    obtain ⟨⟨hidle, _⟩, rfl⟩ := threadStep_left.mp hstep
    exact hnotify hidle (by decide) (by decide)
  | returned =>
    obtain ⟨⟨hidle, _⟩, rfl⟩ := threadStep_returned.mp hstep
    exact ⟨h.codeOf, h.consistent, fun _ => hidle⟩
  | run t =>
    obtain ⟨instr, rest, hcode, hrun⟩ := threadStep_run.mp hstep
    exact h.runInstr hcode hrun

end

end Threads

end QQChat.Client
