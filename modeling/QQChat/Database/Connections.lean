import QQChat.Lib.Trace

/-!
# The pool's connections

`connections_` of `DatabasePool`: the constructor fills it, `get_connection`
takes a handle out, and the deleter of the `unique_ptr` it returns puts the
handle back (`database_pool.cpp`).

Mirroring notes:
- `get_connection` holds `mutex_` from the test of the queue to its return,
  `mysql_ping` and `create_connection` included, and the deleter holds it too:
  each is one step. A caller that waits takes no step.
- A `MYSQL*` is the object's address, `none` the null pointer. What `mysql_init`
  returns is not the address of an object in use; that of one that was closed it
  may be.
- A `unique_ptr` runs its deleter only if it is not null. A caller that was
  handed a null one holds it until it lets go of it, like any other.
- Which calls of the client library succeed is chosen with each step (`Attempt`).

A handle that fails its ping is closed before the new one is there. When the
new one cannot be made, the caller gets a null pointer, and the pool is one
handle short for good: `conserved_iff`.
-/

namespace QQChat.Database

open Trace

abbrev Handle := Nat

/-- What a call of `create_connection` meets: the result of `mysql_init`, and
whether `mysql_real_connect` succeeds. -/
structure Attempt where
  init : Option Handle
  connects : Bool
  deriving DecidableEq, Repr

/-- `DatabasePool::create_connection`. -/
def createConnection (attempt : Attempt) : Option Handle := do
  let conn ← attempt.init
  if attempt.connects then some conn else none

structure ConnectionPool where
  /-- `connections_`, the front first. -/
  connections : List (Option Handle) := []
  /-- What callers were handed and have not let go of. -/
  held : List (Option Handle) := []
  deriving DecidableEq, Repr

namespace ConnectionPool

/-- One round of the constructor's loop. -/
def openConnection (pool : ConnectionPool) (attempt : Attempt) : ConnectionPool :=
  match createConnection attempt with
  | some conn => { pool with connections := pool.connections ++ [some conn] }
  | none => pool

/-- `DatabasePool::DatabasePool`. -/
def construct (attempts : List Attempt) : ConnectionPool :=
  attempts.foldl openConnection {}

/-- `DatabasePool::get_connection`: what it returns, and the pool. It waits for
as long as the queue is empty. -/
def getConnection (pool : ConnectionPool) (ping : Bool) (attempt : Attempt) :
    Option (Option Handle × ConnectionPool) :=
  match pool.connections with
  | [] => none
  | conn :: connections =>
    let conn := if ping then conn else createConnection attempt
    some (conn, { connections, held := pool.held ++ [conn] })

/-- A caller lets go of what it was handed. -/
def release (pool : ConnectionPool) (conn : Option Handle) : ConnectionPool :=
  let held := pool.held.erase conn
  match conn with
  | some conn => { connections := pool.connections ++ [some conn], held }
  | none => { pool with held }

/-- The idle handles. -/
def idle (pool : ConnectionPool) : List Handle :=
  pool.connections.filterMap id

/-- The handles callers hold. -/
def inUse (pool : ConnectionPool) : List Handle :=
  pool.held.filterMap id

end ConnectionPool

inductive PoolEvent where
  | get (ping : Bool) (attempt : Attempt)
  | release (conn : Option Handle)
  deriving DecidableEq, Repr

/-- What `mysql_init` returns is none of the objects that are not closed. -/
def Fresh (pool : ConnectionPool) (attempt : Attempt) : Prop :=
  ∀ conn, attempt.init = some conn →
    some conn ∉ pool.connections.tail ∧ some conn ∉ pool.held

instance (pool : ConnectionPool) (attempt : Attempt) : Decidable (Fresh pool attempt) :=
  match h : attempt.init with
  | none => isTrue fun _ hconn => by rw [h] at hconn; cases hconn
  | some conn =>
    decidable_of_iff (some conn ∉ pool.connections.tail ∧ some conn ∉ pool.held)
      ⟨fun hfresh conn' hconn => by rw [h] at hconn; cases hconn; exact hfresh,
        fun hfresh => hfresh conn h⟩

def poolStep (pool : ConnectionPool) : PoolEvent → Option ConnectionPool
  | .get ping attempt =>
    if ping ∨ Fresh pool attempt then (pool.getConnection ping attempt).map Prod.snd else none
  | .release conn => if conn ∈ pool.held then some (pool.release conn) else none

theorem poolStep_get {pool pool' : ConnectionPool} {ping : Bool} {attempt : Attempt} :
    poolStep pool (.get ping attempt) = some pool' ↔
      (ping = true ∨ Fresh pool attempt) ∧ ∃ conn connections,
        pool.connections = conn :: connections
        ∧ pool' = { connections
                    held := pool.held ++ [if ping then conn else createConnection attempt] } := by
  simp only [poolStep, Option.ite_none_right_eq_some]
  refine and_congr_right fun _ => ?_
  unfold ConnectionPool.getConnection
  cases pool.connections with
  | nil => exact ⟨(fun h => nomatch h), fun ⟨_, _, h, _⟩ => nomatch h⟩
  | cons conn connections =>
    constructor
    · intro h
      cases h
      exact ⟨conn, connections, rfl, rfl⟩
    · intro ⟨_, _, hcons, h⟩
      cases hcons
      exact congrArg some h.symm

theorem poolStep_release {pool pool' : ConnectionPool} {conn : Option Handle} :
    poolStep pool (.release conn) = some pool' ↔ conn ∈ pool.held ∧ pool' = pool.release conn := by
  simp only [poolStep, Option.ite_none_right_eq_some, Option.some_inj, eq_comm (b := pool')]

/-! ## Conservation -/

/-- The handles that are not closed: idle or held. -/
def ConnectionPool.live (pool : ConnectionPool) : List Handle :=
  pool.idle ++ pool.inUse

/-- Idle and held handles are as many as were opened, none is there twice, no
null pointer is queued, and a caller waits only while another holds a handle. -/
structure Conserved (opened : Nat) (pool : ConnectionPool) : Prop where
  count : pool.idle.length + pool.inUse.length = opened
  nodup : (pool.idle ++ pool.inUse).Nodup
  not_null : none ∉ pool.connections
  not_waiting : 0 < opened → pool.inUse = [] → pool.connections ≠ []

/-- A handle that fails its ping is replaced. -/
def Reconnects (e : PoolEvent) : Prop :=
  ∀ ping attempt, e = .get ping attempt → ping = true ∨ createConnection attempt ≠ none

/-- The last part follows from the others. -/
theorem Conserved.mk' {opened : Nat} {pool : ConnectionPool} (hcount : pool.live.length = opened)
    (hnodup : pool.live.Nodup) (hnull : none ∉ pool.connections) : Conserved opened pool := by
  have hlength : pool.idle.length + pool.inUse.length = opened := by
    rw [← hcount, ConnectionPool.live, List.length_append]
  refine ⟨hlength, hnodup, hnull, fun hopened hnone hempty => ?_⟩
  rw [ConnectionPool.idle, hempty, hnone] at hlength
  exact absurd hlength.symm (Nat.ne_of_gt hopened)

theorem Conserved.length_live {opened : Nat} {pool : ConnectionPool} (h : Conserved opened pool) :
    pool.live.length = opened := by
  rw [ConnectionPool.live, List.length_append, h.count]

/-- Letting go of a handle moves it. -/
theorem live_release_perm {pool : ConnectionPool} {conn : Option Handle} (h : conn ∈ pool.held) :
    (pool.release conn).live.Perm pool.live := by
  have hheld : pool.inUse.Perm ((conn :: pool.held.erase conn).filterMap id) :=
    (List.perm_cons_erase h).filterMap id
  unfold ConnectionPool.live
  cases conn with
  | none => exact (List.Perm.append_left _ hheld).symm
  | some conn =>
    have hidle : (pool.release (some conn)).idle = pool.idle ++ [conn] := by
      simp [ConnectionPool.release, ConnectionPool.idle]
    rw [hidle, List.append_assoc]
    exact (List.Perm.append_left _ hheld).symm

theorem conserved_release {opened : Nat} {pool : ConnectionPool} {conn : Option Handle}
    (hpool : Conserved opened pool) (h : conn ∈ pool.held) :
    Conserved opened (pool.release conn) := by
  have hperm := live_release_perm h
  refine .mk' (hperm.length_eq.trans hpool.length_live) (hperm.nodup_iff.mpr hpool.nodup) ?_
  cases conn with
  | none => exact hpool.not_null
  | some conn =>
    intro hnull
    rcases List.mem_append.mp hnull with hnull | hnull
    · exact hpool.not_null hnull
    · cases List.mem_singleton.mp hnull

section

variable {opened : Nat} {connections held : List (Option Handle)} {conn : Handle}

/-- What is left when a handle has been taken from the queue. -/
theorem Conserved.of_cons (h : Conserved opened { connections := some conn :: connections, held }) :
    conn ∉ (ConnectionPool.mk connections held).live
      ∧ (ConnectionPool.mk connections held).live.Nodup
      ∧ (ConnectionPool.mk connections held).live.length + 1 = opened
      ∧ none ∉ connections := by
  have hlive : (ConnectionPool.mk (some conn :: connections) held).live
      = conn :: (ConnectionPool.mk connections held).live := by
    simp [ConnectionPool.live, ConnectionPool.idle, ConnectionPool.inUse]
  have hnodup := h.nodup
  rw [← ConnectionPool.live, hlive, List.nodup_cons] at hnodup
  have hlength := h.length_live
  rw [hlive, List.length_cons] at hlength
  exact ⟨hnodup.1, hnodup.2, hlength, fun hmem => h.not_null (List.mem_cons_of_mem _ hmem)⟩

theorem live_append_held (conn : Option Handle) :
    (ConnectionPool.mk connections (held ++ [conn])).live
      = (ConnectionPool.mk connections held).live ++ conn.toList := by
  unfold ConnectionPool.live ConnectionPool.inUse
  rw [List.filterMap_append, ← List.append_assoc]
  cases conn <;> rfl

/-- Handing a handle out keeps the count, handing out a null pointer does not. -/
theorem conserved_get_iff {next : Option Handle}
    (h : Conserved opened { connections := some conn :: connections, held })
    (hnext : ∀ h, next = some h → h ∉ (ConnectionPool.mk connections held).live) :
    Conserved opened { connections, held := held ++ [next] } ↔ next ≠ none := by
  obtain ⟨_, hnodup, hlength, hnull⟩ := h.of_cons
  constructor
  · intro hpool hnone
    have hcount := hpool.length_live
    rw [live_append_held, hnone, Option.toList_none, List.append_nil] at hcount
    omega
  · intro hsome
    obtain ⟨h', rfl⟩ := Option.ne_none_iff_exists'.mp hsome
    refine .mk' ?_ ?_ hnull
    · rw [live_append_held, List.length_append]
      exact hlength
    · rw [live_append_held]
      refine List.nodup_append.mpr ⟨hnodup, List.pairwise_singleton _ h', fun x hx y hy heq => ?_⟩
      rw [heq, List.mem_singleton.mp hy] at hx
      exact hnext h' rfl hx

end

theorem mem_of_mem_live {connections held : List (Option Handle)} {conn : Handle}
    (h : conn ∈ (ConnectionPool.mk connections held).live) :
    some conn ∈ connections ∨ some conn ∈ held := by
  unfold ConnectionPool.live ConnectionPool.idle ConnectionPool.inUse at h
  simpa using h

/-- A step keeps the pool whole exactly if it does not fail to reconnect. -/
theorem step_conserved_iff {opened : Nat} {pool pool' : ConnectionPool} {e : PoolEvent}
    (hpool : Conserved opened pool) (h : poolStep pool e = some pool') :
    Conserved opened pool' ↔ Reconnects e := by
  cases e with
  | release conn =>
    obtain ⟨hmem, rfl⟩ := poolStep_release.mp h
    exact iff_of_true (conserved_release hpool hmem) fun _ _ heq => nomatch heq
  | get ping attempt =>
    obtain ⟨hfresh, front, connections, hcons, rfl⟩ := poolStep_get.mp h
    obtain ⟨queued, held⟩ := pool
    subst hcons
    -- So far no null handle was queued.
    obtain ⟨conn, rfl⟩ : ∃ conn, front = some conn := by
      refine Option.ne_none_iff_exists'.mp fun hnull => hpool.not_null ?_
      rw [hnull]
      exact List.mem_cons_self ..
    refine (conserved_get_iff hpool fun next hnext => ?_).trans ?_
    · cases ping with
      | true =>
        cases hnext
        exact hpool.of_cons.1
      | false =>
        -- The new object is one that the pool does not know.
        have hinit : attempt.init = some next := by
          obtain ⟨conn', hinit, hconnects⟩ := Option.bind_eq_some_iff.mp hnext
          split at hconnects
          · rw [hinit, hconnects]
          · cases hconnects
        obtain ⟨hqueued, hheld⟩ := hfresh.resolve_left Bool.false_ne_true next hinit
        intro hlive
        rcases mem_of_mem_live hlive with hmem | hmem
        · exact hqueued hmem
        · exact hheld hmem
    · cases ping with
      | true =>
        refine iff_of_true (fun heq => nomatch heq) fun ping attempt heq => ?_
        cases heq
        exact Or.inl rfl
      | false =>
        constructor
        · intro hsome ping attempt heq
          cases heq
          exact Or.inr hsome
        · intro hreconnects
          exact (hreconnects false attempt rfl).resolve_left Bool.false_ne_true

/-! ## The constructor -/

theorem construct_eq (attempts : List Attempt) :
    ConnectionPool.construct attempts
      = { connections := (attempts.filterMap createConnection).map some } := by
  suffices hloop : ∀ queued, attempts.foldl ConnectionPool.openConnection { connections := queued }
      = { connections := queued ++ (attempts.filterMap createConnection).map some } from
    hloop []
  intro queued
  induction attempts generalizing queued with
  | nil => simp
  | cons attempt attempts ih =>
    rw [List.foldl_cons, List.filterMap_cons]
    cases hconn : createConnection attempt with
    | none =>
      have hround : ConnectionPool.openConnection { connections := queued } attempt
          = { connections := queued } := by
        rw [ConnectionPool.openConnection, hconn]
      rw [hround]
      exact ih queued
    | some conn =>
      have hround : ConnectionPool.openConnection { connections := queued } attempt
          = { connections := queued ++ [some conn] } := by
        rw [ConnectionPool.openConnection, hconn]
      rw [hround, ih, List.map_cons, List.append_assoc, List.singleton_append]

/-- The handles the constructor opens. -/
def opened (attempts : List Attempt) : List Handle :=
  attempts.filterMap createConnection

theorem conserved_construct {attempts : List Attempt} (hdistinct : (opened attempts).Nodup) :
    Conserved (opened attempts).length (ConnectionPool.construct attempts) := by
  have hlive : (ConnectionPool.construct attempts).live = opened attempts := by
    rw [construct_eq, ConnectionPool.live, ConnectionPool.idle, ConnectionPool.inUse, opened]
    simp
  refine .mk' (congrArg List.length hlive) (hlive ▸ hdistinct) fun hnull => ?_
  rw [construct_eq] at hnull
  obtain ⟨_, _, heq⟩ := List.mem_map.mp hnull
  cases heq

/-- **The pool is conserved exactly as long as it can reconnect**: over any number
of callers, in any order. The objects that the constructor opens are distinct. -/
theorem conserved_iff {attempts : List Attempt} (hdistinct : (opened attempts).Nodup)
    (evs : List PoolEvent) :
    Always poolStep (Conserved (opened attempts).length) (.construct attempts) evs
      ↔ EachStep poolStep (fun _ e _ => Reconnects e) (.construct attempts) evs := by
  have hinit := conserved_construct hdistinct
  rw [always_iff_eachStep]
  refine (and_iff_right hinit).trans ?_
  refine eachStep_iff (E := fun _ => True) (I := fun _ => True)
    (J := Conserved (opened attempts).length) ?_ ?_ ?_ (fun _ _ => trivial) trivial hinit
  · exact fun _ _ _ => trivial
  · exact fun _ _ _ _ hpool' => hpool'
  · exact fun _ _ hpool h => step_conserved_iff hpool h

/-- A pool of one, with a handle that is taken, pinged in vain, replaced and
returned. -/
theorem conserved_iff_replaced :
    Always poolStep (Conserved 1) (.construct [⟨some 1, true⟩])
        [.get false ⟨some 2, true⟩, .release (some 2)]
      ↔ EachStep poolStep (fun _ e _ => Reconnects e) (.construct [⟨some 1, true⟩])
        [.get false ⟨some 2, true⟩, .release (some 2)] := by
  have hdistinct : (opened [⟨some 1, true⟩]).Nodup := by decide
  exact conserved_iff hdistinct _

/-- A pool of one whose handle cannot be replaced: afterwards nobody holds a
handle, the queue is empty, and `get_connection` waits for ever. -/
theorem not_conserved_reconnect : (opened [⟨some 1, true⟩]).Nodup
    ∧ ¬ Always poolStep (Conserved (opened [⟨some 1, true⟩]).length) (.construct [⟨some 1, true⟩])
      [.get false ⟨some 2, false⟩, .release none] := by
  refine ⟨by decide, fun h => ?_⟩
  have hrun : exec poolStep (.construct [⟨some 1, true⟩])
      [.get false ⟨some 2, false⟩, .release none] = some {} := by decide
  have hpool := always_iff.mp h _ [] {} (List.append_nil _).symm hrun
  exact hpool.not_waiting (by decide) rfl rfl

end QQChat.Database
