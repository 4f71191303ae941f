import QQChat.Lib.WriteQueue
import QQChat.Server.Answers

/-!
# The write side of a connection

`write_buffer_` and the write in flight are a queue with one writer
(`Lib.WriteQueue`): the lambda that `send` posts adds to it, `do_write`'s
callback completes or fails (`step_queue`). With the executor's queue of lambdas
in front of it, this accounts for every buffer passed to `send`, in order
(`writeQueue_spec`).
-/

namespace QQChat.Server

open Trace ChatServer

variable {δ : Type}

/-! ## One connection's queue -/

def Connection.queue (conn : Connection) : WriteQueue Bytes where
  buffer := conn.writeBuffer
  writing := conn.writes

/-- What an event does to the queue of connection `d`, which is there already. -/
def queueAction (s : ChatServer δ) (d : ConnId) : Event δ → WriteQueue.Action Bytes
  | .runPosted =>
    match s.posted with
    | [] => .idle
    | (c, data) :: _ => if c = d then .enqueue data else .idle
  | .writeOk c => if c = d then .complete else .idle
  | .writeError c => if c = d then .fail else .idle
  | _ => .idle

theorem queue_modify (s : ChatServer δ) (c d : ConnId) {f : Connection → Connection}
    (hf : ∀ conn, (f conn).queue = conn.queue) :
    ((s.modify c f).conn d).queue = (s.conn d).queue := by
  by_cases hd : d = c
  · rw [hd, modify_conn_self, hf]
  · rw [modify_conn_of_ne s hd]

theorem queue_doReadHeader (s : ChatServer δ) (c d : ConnId) :
    ((s.doReadHeader c).conn d).queue = (s.conn d).queue :=
  queue_modify s c d fun _ => rfl

theorem queue_doReadBody (s : ChatServer δ) (c d : ConnId) (length : Nat) :
    ((s.doReadBody c length).conn d).queue = (s.conn d).queue :=
  queue_modify s c d fun _ => rfl

theorem queue_expectBody (s : ChatServer δ) (c d : ConnId) (bodyLength : Nat) :
    ((s.expectBody c bodyLength).conn d).queue = (s.conn d).queue := by
  rw [expectBody, queue_doReadBody]
  exact queue_modify s c d fun _ => rfl

theorem ChatServer.Handled.queue {s s' : ChatServer δ} (h : Handled s s') (d : ConnId) :
    (s'.conn d).queue = (s.conn d).queue := by
  obtain ⟨_, hd⟩ := h.conn d
  rw [hd]
  rfl

theorem queue_onPosted (s : ChatServer δ) (c : ConnId) (data : Bytes) :
    ((s.onPosted c data).conn c).queue = (s.conn c).queue.apply (.enqueue data) := by
  dsimp only [onPosted]
  cases hbuffer : (s.conn c).writeBuffer with
  | nil => simp [doWrite, Connection.queue, WriteQueue.apply, hbuffer]
  | cons front rest => simp [Connection.queue, WriteQueue.apply, hbuffer]

theorem queue_onPosted_of_ne (s : ChatServer δ) {c d : ConnId} (hd : d ≠ c) (data : Bytes) :
    ((s.onPosted c data).conn d).queue = (s.conn d).queue := by
  dsimp only [onPosted]
  split <;> simp [doWrite, hd]

theorem queue_onWritten (s : ChatServer δ) (c : ConnId) :
    ((s.onWritten c).conn c).queue = (s.conn c).queue.apply .complete := by
  dsimp only [onWritten]
  split
  next hnil =>
    rw [modify_conn_self] at hnil
    simp only at hnil
    simp [Connection.queue, WriteQueue.apply, hnil]
  next front rest hcons =>
    rw [modify_conn_self] at hcons
    simp only at hcons
    simp [doWrite, Connection.queue, WriteQueue.apply, hcons]

theorem queue_onWritten_of_ne (s : ChatServer δ) {c d : ConnId} (hd : d ≠ c) :
    ((s.onWritten c).conn d).queue = (s.conn d).queue := by
  dsimp only [onWritten]
  split <;> simp [doWrite, hd]

section

variable {wiring : Wiring} {s s' : ChatServer δ} {e : Event δ} {d : ConnId}

/-- A connection starts with nothing to write. -/
theorem queue_of_accept (h : step wiring s (.accept d) = some s') : (s'.conn d).queue = {} := by
  obtain ⟨_, _, rfl⟩ := step_accept.mp h
  cases wiring <;> simp [doAccept, start, doReadHeader, Connection.queue]

/-- **The write side of a connection is a queue with one writer.** -/
theorem step_queue (hd : e ≠ .accept d) (h : step wiring s e = some s') :
    (s'.conn d).queue = (s.conn d).queue.apply (queueAction s d e)
      ∧ (s.conn d).queue.Enabled (queueAction s d e) := by
  cases e with
  | accept c =>
    obtain ⟨_, _, rfl⟩ := step_accept.mp h
    have hne : d ≠ c := fun heq => hd (heq ▸ rfl)
    refine ⟨?_, trivial⟩
    cases wiring <;> simp [doAccept, start, doReadHeader, queueAction, WriteQueue.apply, hne]
  | acceptError =>
    obtain ⟨_, rfl⟩ := step_acceptError.mp h
    exact ⟨rfl, trivial⟩
  | readHeader c header =>
    obtain ⟨_, _, _, _, rfl⟩ := step_readHeader.mp h
    have hread : ((s.headerRead c header).conn d).queue = (s.conn d).queue :=
      queue_modify s c d fun _ => rfl
    refine ⟨?_, trivial⟩
    split
    · rw [queue_expectBody]
      exact hread
    · exact hread
  | readBody c body w =>
    -- The handlers send, but `send` only posts: no queue changes yet.
    obtain ⟨_, _, packet, r, _, _, rfl⟩ := step_readBody.mp h
    have hhandled := (elim_handled w ((s.bodyRead c body).called c packet) c r).queue d
    have hread : ((s.bodyRead c body).conn d).queue = (s.conn d).queue :=
      queue_modify s c d fun _ => rfl
    refine ⟨?_, trivial⟩
    rw [queue_doReadHeader, hhandled]
    exact hread
  | readError c op =>
    obtain ⟨_, _, rfl⟩ := step_readError.mp h
    have hread : ((s.modify c fun conn =>
        { conn with reads := conn.reads.erase op }).conn d).queue = (s.conn d).queue :=
      queue_modify s c d fun _ => rfl
    exact ⟨hread, trivial⟩
  | runPosted =>
    obtain ⟨_, c, data, posted, hposted, rfl⟩ := step_runPosted.mp h
    dsimp only [queueAction]
    rw [hposted]
    dsimp only
    split
    next hc =>
      rw [← hc]
      exact ⟨queue_onPosted _ c data, trivial⟩
    next hc => exact ⟨queue_onPosted_of_ne _ (Ne.symm hc) data, trivial⟩
  | writeOk c =>
    obtain ⟨_, hwrites, rfl⟩ := step_writeOk.mp h
    dsimp only [queueAction]
    split
    next hc =>
      rw [← hc]
      exact ⟨queue_onWritten s c, hwrites⟩
    next hc => exact ⟨queue_onWritten_of_ne s (Ne.symm hc), trivial⟩
  | writeError c =>
    -- `stop` leaves the buffers alone: what failed stays in front.
    obtain ⟨_, hwrites, rfl⟩ := step_writeError.mp h
    dsimp only [queueAction]
    split
    next hc =>
      rw [← hc]
      refine ⟨?_, hwrites⟩
      simp [onWriteError, stop, Connection.queue, WriteQueue.apply]
    next hc =>
      refine ⟨?_, trivial⟩
      simp [onWriteError, stop, WriteQueue.apply, Ne.symm hc]
  | shutdown =>
    obtain ⟨_, rfl⟩ := step_shutdown.mp h
    exact ⟨rfl, trivial⟩

end

/-! ## What is posted -/

/-- The connections `send` is called on are registered, or being read from. -/
theorem step_sends {wiring : Wiring} {s s' : ChatServer δ} {e : Event δ}
    (h : step wiring s e = some s') : ∃ sends : List (ConnId × Bytes),
      s'.posted = postedAfter s e ++ sends
      ∧ s'.calls = s.calls ++ (loopCalls s e ++ sends.map sendCall)
      ∧ ∀ p ∈ sends, p.1 ∈ s.connections ∨ (s.conn p.1).reads ≠ [] := by
  rcases e.readBody_or_ne with ⟨c, body, w, rfl⟩ | he
  · obtain ⟨_, hmem, packet, r, hpacket, _, rfl⟩ := step_readBody.mp h
    -- The call of `handle_message` comes first, then what the handler sends.
    have hsends : ∃ sends, Passed ((s.bodyRead c body).called c packet)
        (r.elim ((s.bodyRead c body).called c packet)
          (handleRequest w ((s.bodyRead c body).called c packet) c)) sends
        ∧ ∀ p ∈ sends, p.1 ∈ s.connections ∨ (s.conn p.1).reads ≠ [] := by
      cases r with
      | none => exact ⟨[], Passed.refl _, fun _ hp => absurd hp List.not_mem_nil⟩
      | some r =>
        obtain ⟨notified, data, hnotified, hpassed⟩ :=
          (handleRequest_responds w ((s.bodyRead c body).called c packet) c r).passed
        refine ⟨_, hpassed, fun p hp => ?_⟩
        rcases List.mem_append.mp hp with hp | hp
        · exact Or.inl (hnotified p hp).2
        · rw [List.mem_singleton.mp hp]
          exact Or.inr (List.ne_nil_of_mem hmem)
    obtain ⟨sends, hpassed, htargets⟩ := hsends
    refine ⟨sends, hpassed.posted, hpassed.calls.trans ?_, htargets⟩
    dsimp only [loopCalls]
    rw [hpacket]
    show (s.calls ++ [.handleMessage c packet]) ++ _ = _
    rw [List.append_assoc]
  · have hquiet := step_quiet h he
    refine ⟨[], hquiet.2.trans (List.append_nil _).symm, ?_, fun _ hp => absurd hp List.not_mem_nil⟩
    exact hquiet.1.trans (congrArg _ (List.append_nil _).symm)

/-- Nothing concerns a connection that was never accepted. -/
structure Targeted (s : ChatServer δ) : Prop where
  known : Known s
  reads : ReadsBounded s
  posted : ∀ p ∈ s.posted, p.1 ∈ s.accepted

theorem targeted_init (db : δ) : Targeted (ChatServer.init db) where
  known := known_init db
  reads := ⟨fun _ => Nat.zero_le 1, fun _ hne => absurd rfl hne⟩
  posted := fun _ hp => absurd hp List.not_mem_nil

theorem step_targeted {wiring : Wiring} {s s' : ChatServer δ} {e : Event δ} (hs : Targeted s)
    (h : step wiring s e = some s') : Targeted s' := by
  refine ⟨step_known hs.known h, step_readsBounded hs.reads h, fun p hp => ?_⟩
  obtain ⟨sends, hposted, _, htargets⟩ := step_sends h
  refine accepted_subset h ?_
  rw [hposted, List.mem_append] at hp
  rcases hp with hp | hp
  · refine hs.posted p ?_
    unfold postedAfter at hp
    split at hp
    · exact List.mem_of_mem_tail hp
    · exact hp
  · rcases htargets p hp with hlive | hreads
    · exact hs.known hlive
    · exact hs.reads.accepted p.1 hreads

/-! ## Over a run -/

/-- The `send` whose lambda a step runs. -/
def executedSends (s : ChatServer δ) : Event δ → List (ConnId × Bytes)
  | .runPosted => s.posted.head?.toList
  | _ => []

/-- The buffer whose write a step completes. -/
def completedWrites (s : ChatServer δ) : Event δ → List (ConnId × Bytes)
  | .writeOk c => (s.conn c).writes.head?.toList.map fun data => (c, data)
  | _ => []

/-- The buffers for one connection. -/
def buffersOn (c : ConnId) (sends : List (ConnId × Bytes)) : List Bytes :=
  (sends.filter fun p => p.1 = c).map Prod.snd

/-- The buffers passed to `send`. -/
def sendsOf (calls : List Call) : List (ConnId × Bytes) :=
  calls.filterMap fun
    | .send c data => some (c, data)
    | _ => none

theorem buffersOn_append (c : ConnId) (sends sends' : List (ConnId × Bytes)) :
    buffersOn c (sends ++ sends') = buffersOn c sends ++ buffersOn c sends' := by
  unfold buffersOn
  rw [List.filter_append, List.map_append]

theorem buffersOn_executedSends (s : ChatServer δ) (e : Event δ) (d : ConnId) :
    buffersOn d (executedSends s e) = (queueAction s d e).enqueued := by
  cases e with
  | runPosted =>
    dsimp only [executedSends, queueAction]
    cases s.posted with
    | nil => rfl
    | cons p posted =>
      by_cases hp : p.1 = d
      · simp [buffersOn, hp, WriteQueue.Action.enqueued]
      · simp [buffersOn, hp, WriteQueue.Action.enqueued]
  | writeOk c =>
    dsimp only [executedSends, queueAction]
    split <;> rfl
  | writeError c =>
    dsimp only [executedSends, queueAction]
    split <;> rfl
  | _ => rfl

theorem buffersOn_completedWrites (s : ChatServer δ) (e : Event δ) (d : ConnId) :
    buffersOn d (completedWrites s e) = (s.conn d).queue.written (queueAction s d e) := by
  cases e with
  | writeOk c =>
    dsimp only [completedWrites, queueAction]
    by_cases hc : c = d
    · subst hc
      rw [if_pos rfl]
      cases hwrites : (s.conn c).writes <;>
        simp [buffersOn, WriteQueue.written, Connection.queue, hwrites]
    · rw [if_neg hc]
      cases (s.conn c).writes <;> simp [buffersOn, WriteQueue.written, hc]
  | runPosted =>
    dsimp only [completedWrites, queueAction]
    split
    · rfl
    · split <;> rfl
  | writeError c =>
    dsimp only [completedWrites, queueAction]
    split <;> rfl
  | _ => rfl

theorem sendsOf_append (calls calls' : List Call) :
    sendsOf (calls ++ calls') = sendsOf calls ++ sendsOf calls' :=
  List.filterMap_append ..

theorem sendsOf_loopCalls (s : ChatServer δ) (e : Event δ) : sendsOf (loopCalls s e) = [] := by
  unfold loopCalls
  split
  · split <;> rfl
  · split <;> rfl

theorem sendsOf_map (sends : List (ConnId × Bytes)) : sendsOf (sends.map sendCall) = sends := by
  unfold sendsOf
  rw [List.filterMap_map]
  exact List.filterMap_some

/-- Lambdas run in the order they were posted. -/
theorem executedSends_append_postedAfter (s : ChatServer δ) (e : Event δ) :
    executedSends s e ++ postedAfter s e = s.posted := by
  cases e with
  | runPosted =>
    dsimp only [executedSends, postedAfter]
    cases s.posted <;> rfl
  | _ => rfl

/-- The sends whose lambdas have run. -/
def executed (wiring : Wiring) (db : δ) (evs : List (Event δ)) : List (ConnId × Bytes) :=
  outputs (step wiring) executedSends (.init db) evs

/-- The buffers whose writes have completed without an error. -/
def completed (wiring : Wiring) (db : δ) (evs : List (Event δ)) : List (ConnId × Bytes) :=
  outputs (step wiring) completedWrites (.init db) evs

/-- What the events so far say about the queues. -/
structure WriteHistory (wiring : Wiring) (db : δ) (evs : List (Event δ)) (s : ChatServer δ) :
    Prop where
  run : exec (step wiring) (.init db) evs = some s
  targeted : Targeted s
  fresh : ∀ c, c ∉ s.accepted →
    (s.conn c).queue = {} ∧ buffersOn c (executed wiring db evs) = []
  healthy : ∀ c, .writeError c ∉ evs → (s.conn c).queue.Healthy
  broken : ∀ c, .writeError c ∈ evs → (s.conn c).queue.Broken
  conserved : ∀ c, buffersOn c (completed wiring db evs) ++ (s.conn c).writeBuffer
    = buffersOn c (executed wiring db evs)
  fifo : executed wiring db evs ++ s.posted = sendsOf s.calls

theorem writeHistory_init (wiring : Wiring) (db : δ) :
    WriteHistory wiring db [] (ChatServer.init db) where
  run := rfl
  targeted := targeted_init db
  fresh := fun _ _ => ⟨rfl, rfl⟩
  healthy := fun _ _ => WriteQueue.healthy_empty
  broken := fun _ h => absurd h List.not_mem_nil
  conserved := fun _ => rfl
  fifo := rfl

section

variable {wiring : Wiring} {db : δ} {evs : List (Event δ)} {s s' : ChatServer δ} {e : Event δ}

theorem WriteHistory.healthy_or_broken (hs : WriteHistory wiring db evs s) (c : ConnId) :
    (s.conn c).queue.Healthy ∨ (s.conn c).queue.Broken := by
  by_cases hfailed : .writeError c ∈ evs
  · exact Or.inr (hs.broken c hfailed)
  · exact Or.inl (hs.healthy c hfailed)

/-- No write has failed on a connection that was never accepted. -/
theorem WriteHistory.not_failed (hs : WriteHistory wiring db evs s) {c : ConnId}
    (hc : c ∉ s.accepted) : .writeError c ∉ evs := by
  intro hfailed
  have hbroken := hs.broken c hfailed
  rw [(hs.fresh c hc).1] at hbroken
  exact hbroken.2 rfl

theorem WriteHistory.executed_snoc (hs : WriteHistory wiring db evs s)
    (h : step wiring s e = some s') (c : ConnId) :
    buffersOn c (executed wiring db (evs ++ [e]))
      = buffersOn c (executed wiring db evs) ++ (queueAction s c e).enqueued := by
  unfold executed
  rw [outputs_snoc hs.run h, buffersOn_append, buffersOn_executedSends]

theorem WriteHistory.completed_snoc (hs : WriteHistory wiring db evs s)
    (h : step wiring s e = some s') (c : ConnId) :
    buffersOn c (completed wiring db (evs ++ [e]))
      = buffersOn c (completed wiring db evs)
        ++ (s.conn c).queue.written (queueAction s c e) := by
  unfold completed
  rw [outputs_snoc hs.run h, buffersOn_append, buffersOn_completedWrites]

theorem queueAction_ne_fail {c : ConnId} (he : e ≠ .writeError c) :
    queueAction s c e ≠ .fail := by
  cases e with
  | runPosted =>
    dsimp only [queueAction]
    split
    · exact fun heq => nomatch heq
    · split <;> exact fun heq => nomatch heq
  | writeOk d =>
    dsimp only [queueAction]
    split <;> exact fun heq => nomatch heq
  | writeError d =>
    dsimp only [queueAction]
    rw [if_neg (fun hd : d = c => he (hd ▸ rfl))]
    exact fun heq => nomatch heq
  | _ => exact fun heq => nomatch heq

theorem WriteHistory.snoc (hs : WriteHistory wiring db evs s) (h : step wiring s e = some s') :
    WriteHistory wiring db (evs ++ [e]) s' := by
  refine ⟨exec_append.mpr ⟨s, hs.run, exec_cons.mpr ⟨s', h, rfl⟩⟩, step_targeted hs.targeted h,
    ?_, ?_, ?_, ?_, ?_⟩
  · -- A connection that is still new was not sent anything.
    intro c hc
    have hc' : c ∉ s.accepted := fun hmem => hc (accepted_subset h hmem)
    have he : e ≠ .accept c := fun heq => hc (mem_accepted_of_accept (heq ▸ h))
    obtain ⟨hqueue, hexecuted⟩ := hs.fresh c hc'
    obtain ⟨hstep, henabled⟩ := step_queue he h
    rw [hs.executed_snoc h, hexecuted, hstep, hqueue]
    rw [hqueue] at henabled
    cases haction : queueAction s c e with
    | enqueue data =>
      have hposted := buffersOn_executedSends s e c
      rw [haction] at hposted
      refine absurd (hs.targeted.posted (c, data) ?_) hc'
      have hmem : (c, data) ∈ executedSends s e := by
        have hdata : data ∈ buffersOn c (executedSends s e) := by
          rw [hposted]
          exact List.mem_singleton_self data
        obtain ⟨p, hp, rfl⟩ := List.mem_map.mp hdata
        obtain ⟨hp, hpc⟩ := List.mem_filter.mp hp
        rw [← of_decide_eq_true hpc]
        exact hp
      rw [← executedSends_append_postedAfter s e]
      exact List.mem_append_left _ hmem
    | complete =>
      rw [haction] at henabled
      exact absurd rfl henabled
    | fail =>
      rw [haction] at henabled
      exact absurd rfl henabled
    | idle => exact ⟨rfl, rfl⟩
  · -- No action but an error breaks a healthy queue.
    intro c hc
    rw [List.mem_append, List.mem_singleton, not_or] at hc
    by_cases he : e = .accept c
    · subst he
      rw [queue_of_accept h]
      exact WriteQueue.healthy_empty
    · rw [(step_queue he h).1]
      exact WriteQueue.healthy_apply (hs.healthy c hc.1) (queueAction_ne_fail (Ne.symm hc.2))
  · intro c hc
    rw [List.mem_append, List.mem_singleton] at hc
    by_cases he : e = .accept c
    · subst he
      have hfresh := hs.not_failed (step_accept.mp h).2.1
      exact absurd (hc.resolve_right fun heq => nomatch heq) hfresh
    · obtain ⟨hstep, henabled⟩ := step_queue he h
      rw [hstep]
      by_cases hfailed : .writeError c ∈ evs
      · exact WriteQueue.broken_apply (hs.broken c hfailed) henabled
      · -- This is the first error.
        cases hc.resolve_left hfailed
        have haction : queueAction s c (.writeError c) = .fail := if_pos rfl
        rw [haction]
        exact WriteQueue.broken_of_fail (hs.healthy c hfailed) (step_writeError.mp h).2.1
  · -- Completed and waiting buffers together: one `send` more, or the front moves over.
    intro c
    rw [hs.completed_snoc h, hs.executed_snoc h]
    by_cases he : e = .accept c
    · subst he
      obtain ⟨hqueue, hexecuted⟩ := hs.fresh c (step_accept.mp h).2.1
      have hbuffer : (s'.conn c).writeBuffer = [] := congrArg WriteQueue.buffer (queue_of_accept h)
      have hcompleted := hs.conserved c
      rw [hexecuted] at hcompleted
      rw [(List.append_eq_nil_iff.mp hcompleted).1, hexecuted, hbuffer]
      rfl
    · obtain ⟨hstep, henabled⟩ := step_queue he h
      have hbuffer : (s'.conn c).writeBuffer
          = ((s.conn c).queue.apply (queueAction s c e)).buffer := congrArg WriteQueue.buffer hstep
      rw [hbuffer, List.append_assoc,
        WriteQueue.written_append_buffer (hs.healthy_or_broken c) henabled, ← hs.conserved c,
        List.append_assoc]
      rfl
  · -- The posted lambdas run in the order of the calls.
    obtain ⟨sends, hposted, hcalls, _⟩ := step_sends h
    have hexecuted : executed wiring db (evs ++ [e])
        = executed wiring db evs ++ executedSends s e := outputs_snoc hs.run h
    rw [hexecuted, hposted, hcalls, sendsOf_append, sendsOf_append, sendsOf_loopCalls,
      sendsOf_map, List.nil_append, ← hs.fifo, ← executedSends_append_postedAfter s e]
    simp only [List.append_assoc]

end

/-- **The write queue, over a run.** At most one write is in flight, and it is that
of the front of the buffer. Until a write fails one is in flight exactly while
there is something to write; after that none ever is. The buffers written, then
those in the queue, then those still posted, are the buffers passed to `send`. -/
theorem writeQueue_spec {wiring : Wiring} {db : δ} {evs : List (Event δ)} {s : ChatServer δ}
    (h : exec (step wiring) (.init db) evs = some s) :
    (∀ c, (s.conn c).writes = []
        ∨ ∃ front rest, (s.conn c).writes = [front] ∧ (s.conn c).writeBuffer = front :: rest)
      ∧ (∀ c, .writeError c ∉ evs → ((s.conn c).writes ≠ [] ↔ (s.conn c).writeBuffer ≠ []))
      ∧ (∀ c, .writeError c ∈ evs → (s.conn c).writes = [])
      ∧ (∀ c, buffersOn c (completed wiring db evs) ++ (s.conn c).writeBuffer
          = buffersOn c (executed wiring db evs))
      ∧ executed wiring db evs ++ s.posted = sendsOf s.calls := by
  have hs : WriteHistory wiring db evs s :=
    exec_induction (P := WriteHistory wiring db) (writeHistory_init wiring db)
      (fun hs hstep => hs.snoc hstep) h
  refine ⟨fun c => ?_, fun c hc => (hs.healthy c hc).writing_iff, fun c hc => (hs.broken c hc).1,
    hs.conserved, hs.fifo⟩
  rcases hs.healthy_or_broken c with hhealthy | hbroken
  · exact hhealthy.cases.imp_left And.left
  · exact Or.inl hbroken.1

/-- Two logins on one connection; the first answer is written, the second fails. -/
def twoAnswers : List (Event Unit) :=
  .accept 1 :: loginA 1 ++ loginB 1 ++ [.runPosted, .runPosted, .writeOk 1, .writeError 1]

theorem writeQueue_spec_twoAnswers : ∃ s, exec (step .started) (.init ()) twoAnswers = some s
    ∧ (s.conn 1).writeBuffer.length = 1 ∧ (s.conn 1).writes = []
    ∧ buffersOn 1 (completed .started () twoAnswers) ++ (s.conn 1).writeBuffer
      = buffersOn 1 (executed .started () twoAnswers) := by
  have hrun : (exec (step .started) (.init ()) twoAnswers).map
      (fun s => (s.conn 1).writeBuffer.length) = some 1 := by decide
  obtain ⟨s, hs, hlength⟩ := Option.map_eq_some_iff.mp hrun
  obtain ⟨_, _, hsilent, hconserved, _⟩ := writeQueue_spec hs
  have hfailed : .writeError 1 ∈ twoAnswers := by
    unfold twoAnswers
    exact List.mem_append_right _ (by simp)
  exact ⟨s, hs, hlength, hsilent 1 hfailed, hconserved 1⟩

end QQChat.Server
