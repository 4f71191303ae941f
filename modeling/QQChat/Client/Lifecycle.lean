import QQChat.Lib.Trace

/-!
# The life of a descriptor

`connect` and `disconnect` on the thread that owns the client and `run` with
`read_loop` on the worker (`chat_client.cpp`), interleaved wherever one of them reads or
writes a member: `running_`, `connected_` and `socket_fd_` are tested and set by both,
with no lock, and `disconnect` waits for the worker only after it has looked at
`socket_fd_`.

Mirroring notes:
- A descriptor is named by the call of `socket` that returned it, counted from 0; `none`
  is -1. A number that the system hands out again is another descriptor here.
- `opened` and `closed` are records, of how many calls of `socket` returned one and of
  what `close` was called with; no code reads them. `close(-1)` closes nothing.
- What a system call returns is part of the event. What `::connect` and `recv` are called
  with decides nothing: any outcome is possible.
- `host_` and `port_` reach `inet_pton` and `::connect` alone, and what is received goes
  to `read_buffer_`, which neither thread tests here. The status callback does not come
  back to the client.

`Safe` is what the two threads have to keep clear of. As long as they do, where one of
them is tells enough about the other (`Placed`), and every descriptor is closed once or
still to be closed (`Accounted`).
-/

namespace QQChat.Client.Lifecycle

open Trace

/-! ## The two threads -/

/-- What the owner asks for. -/
inductive Call where
  | connect
  | disconnect
  deriving DecidableEq, Repr

/-- What the owner does next. -/
inductive Owner where
  | idle
  /-- `running_ = false`. -/
  | stop
  /-- `if (socket_fd_ != -1)`. -/
  | check
  /-- The argument of `close(socket_fd_)`. -/
  | load
  | close (fd : Option Nat)
  /-- `socket_fd_ = -1`. -/
  | reset
  /-- `if (worker_thread_.joinable()) worker_thread_.join()`. -/
  | join
  /-- `connected_ = false`. -/
  | clear
  /-- `disconnect` has returned. -/
  | returned
  /-- `running_ = true`, in `connect`. -/
  | start
  /-- `worker_thread_ = std::thread(..)`. -/
  | spawn
  deriving DecidableEq, Repr

/-- What the worker does next. -/
inductive Worker where
  | inetPton
  | socket
  /-- `socket_fd_ = socket(..)`, with what the call returned. -/
  | store (fd : Option Nat)
  /-- `if (socket_fd_ < 0)`. -/
  | check
  | connect
  /-- The argument of `close(socket_fd_)`, after `::connect` has failed. -/
  | load
  | close (fd : Option Nat)
  /-- `socket_fd_ = -1`. -/
  | reset
  /-- `connected_ = true`. -/
  | connected
  /-- `while (running_)`. -/
  | loop
  | recv
  /-- `connected_ = false`, behind the loop. -/
  | left
  | returned
  deriving DecidableEq, Repr

structure State where
  owner : Owner := .idle
  /-- The call that the owner is in. -/
  call : Call := .disconnect
  /-- `none` is a `worker_thread_` that is not joinable. -/
  worker : Option Worker := none
  running : Bool := false
  connected : Bool := false
  socketFd : Option Nat := none
  opened : Nat := 0
  closed : List Nat := []
  deriving DecidableEq, Repr

inductive Event where
  | call (call : Call)
  | owner
  /-- `ok` is what a system call returns: whether it succeeds. -/
  | worker (ok : Bool)
  deriving DecidableEq, Repr

/-- `disconnect`, and what `connect` does behind it. -/
def ownerStep (s : State) : Option State :=
  match s.owner with
  | .idle => none
  | .stop => some { s with running := false, owner := .check }
  | .check => some { s with owner := if s.socketFd = none then .join else .load }
  | .load => some { s with owner := .close s.socketFd }
  | .close fd => some { s with closed := s.closed ++ fd.toList, owner := .reset }
  | .reset => some { s with socketFd := none, owner := .join }
  | .join =>
    if s.worker = none ∨ s.worker = some .returned then
      some { s with worker := none, owner := .clear }
    else none
  | .clear => some { s with connected := false, owner := .returned }
  | .returned =>
    some { s with
      owner := match s.call with
        | .connect => .start
        | .disconnect => .idle }
  | .start => some { s with running := true, owner := .spawn }
  | .spawn => some { s with worker := some .inetPton, owner := .idle }

/-- `run` and `read_loop`. -/
def workerStep (s : State) (ok : Bool) : Option State :=
  match s.worker with
  | none => none
  | some .inetPton => some { s with worker := some (if ok then .socket else .returned) }
  | some .socket =>
    if ok then some { s with opened := s.opened + 1, worker := some (.store (some s.opened)) }
    else some { s with worker := some (.store none) }
  | some (.store fd) => some { s with socketFd := fd, worker := some .check }
  | some .check =>
    some { s with worker := some (if s.socketFd = none then .returned else .connect) }
  | some .connect => some { s with worker := some (if ok then .connected else .load) }
  | some .load => some { s with worker := some (.close s.socketFd) }
  | some (.close fd) => some { s with closed := s.closed ++ fd.toList, worker := some .reset }
  | some .reset => some { s with socketFd := none, worker := some .returned }
  | some .connected => some { s with connected := true, worker := some .loop }
  | some .loop => some { s with worker := some (if s.running then .recv else .left) }
  | some .recv => some { s with worker := some (if ok then .loop else .left) }
  | some .left => some { s with connected := false, worker := some .returned }
  | some .returned => none

def step (s : State) : Event → Option State
  | .call call => if s.owner = .idle then some { s with call, owner := .stop } else none
  | .owner => ownerStep s
  | .worker ok => workerStep s ok

/-! ## Safe steps -/

/-- Between the load of `socket_fd_` for `close` and the store of -1. -/
@[grind]
def Owner.Closing : Owner → Prop
  | .close _ => True
  | .reset => True
  | _ => False

@[grind]
def Worker.Closing : Worker → Prop
  | .close _ => True
  | .reset => True
  | _ => False

instance (o : Owner) : Decidable o.Closing :=
  match o with
  | .close _ | .reset => .isTrue trivial
  | .idle | .stop | .check | .load | .join | .clear | .returned | .start | .spawn => .isFalse id

instance (w : Worker) : Decidable w.Closing :=
  match w with
  | .close _ | .reset => .isTrue trivial
  | .inetPton | .socket | .store _ | .check | .connect | .load | .connected | .loop | .recv
  | .left | .returned => .isFalse id

/-- While there is a descriptor in `socket_fd_`, `::connect` does not succeed once
`disconnect` waits for the worker, and neither thread loads it to close it while the
other is closing it. -/
@[grind]
def Safe (s : State) : Event → Prop
  | .call _ => True
  | .owner => s.socketFd ≠ none → s.owner = .load → ∀ w, s.worker = some w → ¬ w.Closing
  | .worker ok =>
    s.socketFd ≠ none →
      (s.worker = some .connect → ok = true → s.owner ≠ .join)
        ∧ (s.worker = some .load → ¬ s.owner.Closing)

instance (s : State) (e : Event) : Decidable (Safe s e) :=
  match e with
  | .call _ => .isTrue trivial
  | .owner => inferInstanceAs
    (Decidable (s.socketFd ≠ none → s.owner = .load → ∀ w ∈ s.worker, ¬ w.Closing))
  | .worker ok => inferInstanceAs (Decidable (s.socketFd ≠ none →
    (s.worker = some .connect → ok = true → s.owner ≠ .join)
      ∧ (s.worker = some .load → ¬ s.owner.Closing)))

/-! ## Where the threads can be -/

/-- The worker has been waited for. -/
@[grind]
def Owner.Joined : Owner → Prop
  | .clear => True
  | .returned => True
  | .start => True
  | .spawn => True
  | _ => False

/-- `disconnect` has found a descriptor and not yet taken it away. -/
@[grind]
def Owner.Taking : Owner → Prop
  | .load => True
  | .close _ => True
  | .reset => True
  | _ => False

theorem Owner.Closing.taking {o : Owner} (h : o.Closing) : o.Taking := by
  cases o with
  | close fd => trivial
  | reset => trivial
  | _ => exact absurd h id

/-- `run` before it has stored a descriptor. -/
@[grind]
def Worker.Early : Worker → Prop
  | .inetPton => True
  | .socket => True
  | .store _ => True
  | _ => False

/-- `run` between the store of a descriptor and what comes of `::connect`. -/
def Worker.Connecting : Worker → Prop
  | .check => True
  | .connect => True
  | .load => True
  | .close _ => True
  | .reset => True
  | _ => False

/-- What one thread knows of the other by where it is itself. -/
structure Placed (s : State) : Prop where
  joined : s.owner.Joined → s.worker = none
  cleared : s.owner = .returned → s.connected = false
  vacant : s.worker = none → s.socketFd = none
  early : ∀ w, s.worker = some w → w.Early → s.socketFd = none ∧ ¬ s.owner.Taking
  fresh : ∀ fd, s.worker = some (.store (some fd)) → fd < s.opened
  stored : ∀ fd, s.socketFd = some fd → fd < s.opened
  /-- What was loaded is still there. -/
  ownerLoaded : ∀ fd, s.owner = .close fd → s.socketFd = fd
  workerLoaded : ∀ fd, s.worker = some (.close fd) → s.socketFd = fd
  /-- A descriptor is closed by one of the two. -/
  apart : s.socketFd ≠ none → s.owner.Closing → ∀ w, s.worker = some w → ¬ w.Closing
  /-- A descriptor that `disconnect` has missed is still the worker's to close. -/
  waiting : s.socketFd ≠ none → s.owner = .join → ∃ w, s.worker = some w ∧ w.Connecting

section

variable {s s' : State}

/-- What has to be so for the owner to go on to `o`. -/
structure OwnerMay (s : State) (o : Owner) : Prop where
  joined : o.Joined → s.worker = none
  taking : o.Taking → s.socketFd = none → s.owner.Taking
  loaded : ∀ fd, o = .close fd → s.socketFd = fd
  apart : s.socketFd ≠ none → o.Closing → ∀ w, s.worker = some w → ¬ w.Closing
  waiting : o = .join → s.socketFd = none

/-- To a place that says nothing. -/
theorem OwnerMay.of_quiet {o : Owner} (hjoined : ¬ o.Joined) (htaking : ¬ o.Taking)
    (hjoin : o ≠ .join) : OwnerMay s o where
  joined := fun h => absurd h hjoined
  taking := fun h => absurd h htaking
  loaded := fun fd h => absurd (by rw [h]; trivial) htaking
  apart := fun _ h => absurd h.taking htaking
  waiting := fun h => absurd h hjoin

/-- Behind the join. -/
theorem OwnerMay.of_joined {o : Owner} (hworker : s.worker = none) (hjoined : o.Joined) :
    OwnerMay s o := by
  have htaking : ¬ o.Taking := by
    intro htaking
    cases o <;> first | exact hjoined | exact htaking
  have hjoin : o ≠ .join := by
    intro hjoin
    rw [hjoin] at hjoined
    exact hjoined
  exact {
    joined := fun _ => hworker
    taking := fun h => absurd h htaking
    loaded := fun fd h => absurd (by rw [h]; trivial) htaking
    apart := fun _ h => absurd h.taking htaking
    waiting := fun h => absurd h hjoin }

/-- The owner goes on to `o`, and leaves the rest as it is. -/
theorem Placed.owner (hs : Placed s) {o : Owner} (hnew : s'.owner = o)
    (hworker : s'.worker = s.worker) (hfd : s'.socketFd = s.socketFd)
    (hopened : s'.opened = s.opened) (hcleared : o = .returned → s'.connected = false)
    (h : OwnerMay s o) : Placed s' where
  joined := by
    rw [hnew, hworker]
    exact h.joined
  cleared := by rwa [hnew]
  vacant := by
    rw [hworker, hfd]
    exact hs.vacant
  early := by
    rw [hworker, hfd, hnew]
    intro w hw hwearly
    obtain ⟨hnone, hnot⟩ := hs.early w hw hwearly
    exact ⟨hnone, fun htaking => hnot (h.taking htaking hnone)⟩
  fresh := by
    rw [hworker, hopened]
    exact hs.fresh
  stored := by
    rw [hfd, hopened]
    exact hs.stored
  ownerLoaded := by
    rw [hnew, hfd]
    exact h.loaded
  workerLoaded := by
    rw [hworker, hfd]
    exact hs.workerLoaded
  apart := by
    rw [hfd, hnew, hworker]
    exact h.apart
  waiting := by
    rw [hfd, hnew]
    exact fun hstored hjoin => absurd (h.waiting hjoin) hstored

/-- What has to be so for the worker to go on from `w` to `w'`. -/
structure WorkerMay (s : State) (w w' : Worker) : Prop where
  early : w'.Early → w.Early
  loaded : ∀ fd, w' = .close fd → s.socketFd = fd
  apart : s.socketFd ≠ none → s.owner.Closing → w'.Closing → w.Closing
  waiting : s.socketFd ≠ none → s.owner = .join → w.Connecting → w'.Connecting

/-- To a place that is not about closing, and gives nothing up. -/
theorem WorkerMay.of_quiet {w w' : Worker} (hearly : w'.Early → w.Early) (hclosing : ¬ w'.Closing)
    (hconnecting : w.Connecting → w'.Connecting) : WorkerMay s w w' where
  early := hearly
  loaded := fun fd h => absurd (by rw [h]; trivial) hclosing
  apart := fun _ _ h => absurd h hclosing
  waiting := fun _ _ => hconnecting

/-- The worker goes on from `w` to `w'`, and leaves `socket_fd_` as it is. -/
theorem Placed.worker (hs : Placed s) {w w' : Worker} (hold : s.worker = some w)
    (hnew : s'.worker = some w') (howner : s'.owner = s.owner) (hfd : s'.socketFd = s.socketFd)
    (hopened : s.opened ≤ s'.opened) (hfresh : ∀ fd, w' = .store (some fd) → fd < s'.opened)
    (h : WorkerMay s w w') : Placed s' := by
  have hbusy : ¬ s.owner.Joined := fun hjoined => by
    have hnone := hs.joined hjoined
    rw [hold] at hnone
    cases hnone
  constructor
  case joined =>
    rw [howner]
    exact fun hjoined => absurd hjoined hbusy
  case cleared =>
    rw [howner]
    intro hreturned
    rw [hreturned] at hbusy
    exact absurd trivial hbusy
  case vacant =>
    rw [hnew]
    exact nofun
  case early =>
    rw [hnew, hfd, howner]
    intro v hv hvearly
    cases hv
    exact hs.early w hold (h.early hvearly)
  case fresh =>
    rw [hnew]
    exact fun fd hv => hfresh fd (Option.some.inj hv)
  case stored =>
    rw [hfd]
    exact fun fd hstored => Nat.lt_of_lt_of_le (hs.stored fd hstored) hopened
  case ownerLoaded =>
    rw [howner, hfd]
    exact hs.ownerLoaded
  case workerLoaded =>
    rw [hnew, hfd]
    exact fun fd hv => h.loaded fd (Option.some.inj hv)
  case apart =>
    rw [hfd, howner, hnew]
    intro hstored hclosing v hv hvclosing
    cases hv
    exact hs.apart hstored hclosing w hold (h.apart hstored hclosing hvclosing)
  case waiting =>
    rw [hfd, howner, hnew]
    intro hstored hjoin
    obtain ⟨v, hv, hconnecting⟩ := hs.waiting hstored hjoin
    rw [hold] at hv
    cases hv
    exact ⟨w', rfl, h.waiting hstored hjoin hconnecting⟩

/-- There is no descriptor to be stored, and none in `socket_fd_`. -/
theorem Placed.of_none (hfd : s.socketFd = none) (hjoined : s.owner.Joined → s.worker = none)
    (hcleared : s.owner = .returned → s.connected = false)
    (hearly : ∀ w, s.worker = some w → w.Early → ¬ s.owner.Taking)
    (hfresh : ∀ fd, s.worker ≠ some (.store (some fd)))
    (howner : ∀ fd, s.owner = .close fd → fd = none)
    (hworker : ∀ fd, s.worker = some (.close fd) → fd = none) : Placed s where
  joined := hjoined
  cleared := hcleared
  vacant := fun _ => hfd
  early := fun w hw hwearly => ⟨hfd, hearly w hw hwearly⟩
  fresh := fun fd hstore => absurd hstore (hfresh fd)
  stored := fun _ hstored => nomatch hfd.symm.trans hstored
  ownerLoaded := fun fd hclose => hfd.trans (howner fd hclose).symm
  workerLoaded := fun fd hclose => hfd.trans (hworker fd hclose).symm
  apart := fun hstored => absurd hfd hstored
  waiting := fun hstored => absurd hfd hstored

theorem placed_call {call : Call} (hs : Placed s) (h : step s (.call call) = some s') :
    Placed s' := by
  obtain ⟨hidle, heq⟩ := Option.ite_none_right_eq_some.mp h
  cases heq
  exact hs.owner rfl rfl rfl rfl nofun (.of_quiet id id nofun)

theorem placed_owner (hs : Placed s) (hsafe : Safe s .owner) (h : ownerStep s = some s') :
    Placed s' := by
  unfold ownerStep at h
  cases howner : s.owner with
  | idle => simp [howner] at h
  | stop =>
    simp only [howner, Option.some_inj] at h
    subst h
    exact hs.owner rfl rfl rfl rfl nofun (.of_quiet id id nofun)
  | check =>
    simp only [howner, Option.some_inj] at h
    subst h
    by_cases hfd : s.socketFd = none
    · rw [if_pos hfd]
      exact hs.owner rfl rfl rfl rfl nofun {
        joined := nofun
        taking := nofun
        loaded := nofun
        apart := nofun
        waiting := fun _ => hfd }
    · rw [if_neg hfd]
      exact hs.owner rfl rfl rfl rfl nofun {
        joined := nofun
        taking := fun _ hnone => absurd hnone hfd
        loaded := nofun
        apart := nofun
        waiting := nofun }
  | load =>
    simp only [howner, Option.some_inj] at h
    subst h
    exact hs.owner rfl rfl rfl rfl nofun {
      joined := nofun
      taking := fun _ _ => by rw [howner]; trivial
      loaded := fun _ => Owner.close.inj
      -- The worker is not closing what is loaded now.
      apart := fun hstored _ => hsafe hstored howner
      waiting := nofun }
  | close fd =>
    simp only [howner, Option.some_inj] at h
    subst h
    exact hs.owner rfl rfl rfl rfl nofun {
      joined := nofun
      taking := fun _ _ => by rw [howner]; trivial
      loaded := nofun
      apart := fun hstored _ => hs.apart hstored (by rw [howner]; trivial)
      waiting := nofun }
  | reset =>
    simp only [howner, Option.some_inj] at h
    subst h
    have hclosing : s.owner.Closing := by
      rw [howner]
      trivial
    have htaking : s.owner.Taking := by
      rw [howner]
      trivial
    refine .of_none rfl nofun nofun (fun _ _ _ => id) ?_ nofun ?_
    · exact fun fd hstore => (hs.early _ hstore trivial).2 htaking
    · intro fd hclose
      rw [← hs.workerLoaded fd hclose]
      exact Classical.byContradiction fun hstored => hs.apart hstored hclosing _ hclose trivial
  | join =>
    simp only [howner, Option.ite_none_right_eq_some, Option.some_inj] at h
    obtain ⟨hjoinable, rfl⟩ := h
    have hfd : s.socketFd = none := by
      rcases hjoinable with hnone | hreturned
      · exact hs.vacant hnone
      · -- Past `::connect`, the worker has no descriptor to wait for.
        refine Classical.byContradiction fun hstored => ?_
        obtain ⟨w, hw, hconnecting⟩ := hs.waiting hstored howner
        rw [hreturned] at hw
        cases hw
        exact hconnecting
    exact .of_none hfd (fun _ => rfl) nofun nofun nofun nofun nofun
  | clear =>
    simp only [howner, Option.some_inj] at h
    subst h
    have hworker := hs.joined (by rw [howner]; trivial)
    exact hs.owner rfl rfl rfl rfl (fun _ => rfl) (.of_joined hworker trivial)
  | returned =>
    simp only [howner, Option.some_inj] at h
    subst h
    have hworker := hs.joined (by rw [howner]; trivial)
    cases s.call with
    | connect => exact hs.owner rfl rfl rfl rfl nofun (.of_joined hworker trivial)
    | disconnect => exact hs.owner rfl rfl rfl rfl nofun (.of_quiet id id nofun)
  | start =>
    simp only [howner, Option.some_inj] at h
    subst h
    have hworker := hs.joined (by rw [howner]; trivial)
    exact hs.owner rfl rfl rfl rfl nofun (.of_joined hworker trivial)
  | spawn =>
    simp only [howner, Option.some_inj] at h
    subst h
    have hworker := hs.joined (by rw [howner]; trivial)
    exact .of_none (hs.vacant hworker) nofun nofun (fun _ _ _ => id) nofun nofun nofun

/-- The worker stores the descriptor it has opened: `disconnect` has not seen it, or not
looked yet. -/
theorem placed_store (hs : Placed s) {fd : Nat} (hstore : s.worker = some (.store (some fd))) :
    Placed { s with socketFd := some fd, worker := some .check } := by
  obtain ⟨_, htaking⟩ := hs.early _ hstore trivial
  have hclose : ∀ fd, s.owner ≠ .close fd := fun fd hclose => htaking (by rw [hclose]; trivial)
  have hclosing : ¬ s.owner.Closing := fun hclosing => htaking hclosing.taking
  have hjoined : ¬ s.owner.Joined := fun hjoined => nomatch hstore.symm.trans (hs.joined hjoined)
  have hreturned : s.owner ≠ .returned := fun hreturned => hjoined (by rw [hreturned]; trivial)
  constructor
  case joined => exact fun hjoined' => absurd hjoined' hjoined
  case cleared => exact fun hreturned' => absurd hreturned' hreturned
  case vacant => exact nofun
  case early => exact fun w hw hwearly => by cases hw; exact absurd hwearly id
  case fresh => exact nofun
  case stored => exact fun n hn => by cases hn; exact hs.fresh fd hstore
  case ownerLoaded => exact fun n hclose' => absurd hclose' (hclose n)
  case workerLoaded => exact nofun
  case apart => exact fun _ hclosing' => absurd hclosing' hclosing
  case waiting => exact fun _ _ => ⟨.check, rfl, trivial⟩

theorem placed_worker {ok : Bool} (hs : Placed s) (hsafe : Safe s (.worker ok))
    (h : workerStep s ok = some s') : Placed s' := by
  unfold workerStep at h
  cases hworker : s.worker with
  | none => simp [hworker] at h
  | some w =>
    cases w with
    | inetPton =>
      simp only [hworker, Option.some_inj] at h
      subst h
      cases ok with
      | true =>
        exact hs.worker hworker rfl rfl rfl (Nat.le_refl _) nofun
          (.of_quiet (fun _ => trivial) id id)
      | false =>
        exact hs.worker hworker rfl rfl rfl (Nat.le_refl _) nofun
          (.of_quiet (fun _ => trivial) id id)
    | socket =>
      simp only [hworker] at h
      split at h
      · cases h
        refine hs.worker hworker rfl rfl rfl (Nat.le_succ _) (fun fd heq => ?_)
          (.of_quiet (fun _ => trivial) id id)
        cases heq
        exact Nat.lt_succ_self _
      · cases h
        exact hs.worker hworker rfl rfl rfl (Nat.le_refl _) nofun
          (.of_quiet (fun _ => trivial) id id)
    | store fd =>
      simp only [hworker, Option.some_inj] at h
      subst h
      cases fd with
      | some fd => exact placed_store hs hworker
      | none =>
        obtain ⟨_, htaking⟩ := hs.early _ hworker trivial
        refine .of_none rfl ?_ ?_ nofun nofun ?_ nofun
        · exact fun hjoined => nomatch hworker.symm.trans (hs.joined hjoined)
        · exact hs.cleared
        · exact fun fd hclose => absurd (by rw [hclose]; trivial) htaking
    | check =>
      simp only [hworker, Option.some_inj] at h
      subst h
      by_cases hfd : s.socketFd = none
      · rw [if_pos hfd]
        exact hs.worker hworker rfl rfl rfl (Nat.le_refl _) nofun {
          early := id
          loaded := nofun
          apart := nofun
          waiting := fun hstored => absurd hfd hstored }
      · rw [if_neg hfd]
        exact hs.worker hworker rfl rfl rfl (Nat.le_refl _) nofun (.of_quiet id id id)
    | connect =>
      simp only [hworker, Option.some_inj] at h
      subst h
      cases ok with
      | true =>
        exact hs.worker hworker rfl rfl rfl (Nat.le_refl _) nofun {
          early := id
          loaded := nofun
          apart := nofun
          -- Nobody waits for a worker that succeeds here.
          waiting := fun hstored hjoin => absurd hjoin ((hsafe hstored).1 hworker rfl) }
      | false => exact hs.worker hworker rfl rfl rfl (Nat.le_refl _) nofun (.of_quiet id id id)
    | load =>
      simp only [hworker, Option.some_inj] at h
      subst h
      exact hs.worker hworker rfl rfl rfl (Nat.le_refl _) nofun {
        early := id
        loaded := fun _ => Worker.close.inj
        -- `disconnect` is not closing what is loaded now.
        apart := fun hstored hclosing => absurd hclosing ((hsafe hstored).2 hworker)
        waiting := fun _ _ => id }
    | close fd =>
      simp only [hworker, Option.some_inj] at h
      subst h
      exact hs.worker hworker rfl rfl rfl (Nat.le_refl _) nofun {
        early := id
        loaded := nofun
        apart := fun _ _ => id
        waiting := fun _ _ => id }
    | reset =>
      simp only [hworker, Option.some_inj] at h
      subst h
      refine .of_none rfl ?_ ?_ nofun nofun ?_ nofun
      · exact fun hjoined => nomatch hworker.symm.trans (hs.joined hjoined)
      · exact hs.cleared
      · intro fd hclose
        rw [← hs.ownerLoaded fd hclose]
        refine Classical.byContradiction fun hstored => ?_
        have hclosing : s.owner.Closing := by
          rw [show s.owner = .close fd from hclose]
          trivial
        exact hs.apart hstored hclosing _ hworker trivial
    | connected =>
      simp only [hworker, Option.some_inj] at h
      subst h
      exact hs.worker hworker rfl rfl rfl (Nat.le_refl _) nofun (.of_quiet id id id)
    | loop =>
      simp only [hworker, Option.some_inj] at h
      subst h
      cases s.running with
      | true => exact hs.worker hworker rfl rfl rfl (Nat.le_refl _) nofun (.of_quiet id id id)
      | false => exact hs.worker hworker rfl rfl rfl (Nat.le_refl _) nofun (.of_quiet id id id)
    | recv =>
      simp only [hworker, Option.some_inj] at h
      subst h
      cases ok with
      | true => exact hs.worker hworker rfl rfl rfl (Nat.le_refl _) nofun (.of_quiet id id id)
      | false => exact hs.worker hworker rfl rfl rfl (Nat.le_refl _) nofun (.of_quiet id id id)
    | left =>
      simp only [hworker, Option.some_inj] at h
      subst h
      exact hs.worker hworker rfl rfl rfl (Nat.le_refl _) nofun (.of_quiet id id id)
    | returned => simp [hworker] at h

end

/-! ## Every descriptor is closed once -/

/-- Still to be closed. -/
@[grind]
def State.Live (s : State) (fd : Nat) : Prop :=
  s.worker = some (.store (some fd))
    ∨ (s.socketFd = some fd ∧ s.owner ≠ .reset ∧ s.worker ≠ some .reset)

/-- Every descriptor was closed once, or is to be closed. -/
structure Accounted (s : State) : Prop where
  live : ∀ fd, s.Live fd → fd ∉ s.closed
  settled : ∀ fd, ¬ s.Live fd → s.closed.count fd = if fd < s.opened then 1 else 0

section

variable {s s' : State}

/-- A step that neither opens nor closes. -/
theorem Accounted.frame (hs : Accounted s) (hopened : s'.opened = s.opened)
    (hclosed : s'.closed = s.closed) (hlive : ∀ fd, s'.Live fd ↔ s.Live fd) : Accounted s' := by
  constructor
  · intro fd hfd
    rw [hclosed]
    exact hs.live fd ((hlive fd).mp hfd)
  · intro fd hfd
    rw [hclosed, hopened]
    exact hs.settled fd (mt (hlive fd).mpr hfd)

/-- What a call of `close` adds to the record. -/
theorem count_toList (fd : Option Nat) (n : Nat) :
    fd.toList.count n = if fd = some n then 1 else 0 := by
  cases fd with
  | none => rfl
  | some fd => simp [List.count_singleton]

/-- A live descriptor is closed, or -1. -/
theorem Accounted.close (hs : Accounted s) {fd : Option Nat} (hfd : ∀ n, fd = some n → s.Live n)
    (hbound : ∀ n, fd = some n → n < s.opened) (hopened : s'.opened = s.opened)
    (hclosed : s'.closed = s.closed ++ fd.toList)
    (hlive : ∀ n, s'.Live n ↔ s.Live n ∧ fd ≠ some n) : Accounted s' := by
  constructor
  · intro n hn
    obtain ⟨hn, hne⟩ := (hlive n).mp hn
    rw [hclosed, List.mem_append, Option.mem_toList]
    exact not_or_intro (hs.live n hn) hne
  · intro n hn
    rw [hclosed, hopened, List.count_append, count_toList]
    by_cases heq : fd = some n
    · have hzero := List.count_eq_zero.mpr (hs.live n (hfd n heq))
      rw [if_pos heq, hzero, if_pos (hbound n heq)]
    · have hold : ¬ s.Live n := fun hold => hn ((hlive n).mpr ⟨hold, heq⟩)
      rw [if_neg heq, hs.settled n hold, Nat.add_zero]

theorem accounted_owner (hp : Placed s) (hs : Accounted s) (h : ownerStep s = some s') :
    Accounted s' := by
  obtain ⟨joined, _, vacant, early, _, stored, ownerLoaded, _, apart, _⟩ := hp
  unfold ownerStep at h
  cases howner : s.owner with
  | idle => simp [howner] at h
  | join =>
    simp only [howner, Option.ite_none_right_eq_some, Option.some_inj] at h
    obtain ⟨hjoinable, rfl⟩ := h
    refine hs.frame rfl rfl ?_
    grind
  | close fd =>
    -- It is still in `socket_fd_`, and the worker is not about to take it out.
    simp only [howner, Option.some_inj] at h
    subst h
    refine hs.close ?_ ?_ rfl rfl ?_ <;> grind
  | _ =>
    simp only [howner, Option.some_inj] at h
    subst h
    refine hs.frame rfl rfl ?_
    grind

theorem accounted_worker {ok : Bool} (hp : Placed s) (hs : Accounted s)
    (h : workerStep s ok = some s') : Accounted s' := by
  obtain ⟨_, _, _, early, fresh, stored, _, workerLoaded, apart, _⟩ := hp
  unfold workerStep at h
  cases hworker : s.worker with
  | none => simp [hworker] at h
  | some w =>
    cases w with
    | returned => simp [hworker] at h
    | socket =>
      simp only [hworker] at h
      split at h
      · -- The one that is opened is live, and nobody can have closed it.
        cases h
        obtain ⟨live, settled⟩ := hs
        constructor <;> grind
      · cases h
        refine hs.frame rfl rfl ?_
        grind
    | close fd =>
      simp only [hworker, Option.some_inj] at h
      subst h
      refine hs.close ?_ ?_ rfl rfl ?_ <;> grind
    | _ =>
      simp only [hworker, Option.some_inj] at h
      subst h
      refine hs.frame rfl rfl ?_
      grind

end

end QQChat.Client.Lifecycle
