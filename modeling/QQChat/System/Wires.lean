import Mathlib.Data.List.TakeWhile
import QQChat.Client.Answered
import QQChat.Server.Framed
import QQChat.Server.Logins

/-!
# The server and its clients, with the network between them

Everything so far looked at one side. Here the server's event loop and any number of
`ChatClient`s run against each other: each connection is two streams of bytes, one for
what the client has sent and the server not read yet, one for what the server has
written and the client not received. Any side may go on at any time, and a stream may
deliver as much or as little as it likes.

Mirroring notes:
- A `Peer` is a client that connects once, with the server's end of its connection
  named by the id that the connection will be accepted under. Reconnecting is
  `Client.Reconnect`.
- A request is one atomic event: the member stores the callback and sends the packet
  under `callback_mutex_`. `send` on the blocking socket takes the whole packet.
- `read_loop` is two events. `recv` adds a piece to `read_buffer_`, and is called when
  the inner loop has found no complete packet; `handle` is a round of the inner loop.
  Requests may come in between.
- A write that fails may have put a part of its buffer on the stream (`sent`).
- The server is the one in which `do_accept` starts the connections it registers
  (`Wiring.started`). As it is written nothing calls `Connection::start`, so no connection
  is ever read; everything here is about the server with that call.
- `nativeInit` has set the message callback, and no other is set at first.
- `requests`, `received`, `handled` and `invocations` are records; no code reads them.

`Linked` is the invariant: what is in flight between the two ends, in either direction,
is what one has put in and the other not taken out.
-/

namespace QQChat

open Trace

namespace Client

/-- A round of the inner `while` of `read_loop`: the packet it takes off the front of
the buffer, if one is complete. -/
def takePacket (readBuffer : Bytes) : Access (Option (Bytes × Bytes)) := do
  if HEADER_SIZE ≤ readBuffer.length then
    let length ← readUint32 readBuffer 3
    if HEADER_SIZE + length.toNat ≤ readBuffer.length then
      return some (readBuffer.take (HEADER_SIZE + length.toNat),
        readBuffer.drop (HEADER_SIZE + length.toNat))
    else return none
  else return none

theorem takePacket_eq (b : Bytes) : takePacket b
    = some (if wire.Complete b then some (b.take (wire.total b), b.drop (wire.total b))
      else none) := by
  unfold takePacket
  by_cases h : HEADER_SIZE ≤ b.length
  · obtain ⟨length, hread, htotal⟩ := readUint32_header h
    rw [if_pos h, hread]
    show (if HEADER_SIZE + length.toNat ≤ b.length then _ else _) = _
    rw [htotal]
    by_cases hle : wire.total b ≤ b.length
    · rw [if_pos hle, if_pos ⟨h, hle⟩]
      rfl
    · rw [if_neg hle, if_neg fun hc => hle hc.2]
      rfl
  · rw [if_neg h, if_neg fun hc => h hc.1]
    rfl

/-- The inner `while` is these rounds. -/
theorem drain_eq_takePacket (b : Bytes) : drain b = (do
    match ← takePacket b with
    | none => return ([], b)
    | some (packet, rest) =>
      let (packets, rest) ← drain rest
      return (packet :: packets, rest)) := by
  rw [takePacket_eq, drain_eq]
  by_cases h : wire.Complete b
  · rw [if_pos h, Framing.parse_of_complete h]
    show _ = (do
      let (packets, rest) ← drain (b.drop (wire.total b))
      return (b.take (wire.total b) :: packets, rest))
    rw [drain_eq]
    rfl
  · rw [if_neg h, Framing.parse_of_not_complete h]
    rfl

end Client

namespace System

open Client Server

/-! ## The state -/

/-- A client on its connection, and the two streams of it. -/
structure Peer where
  /-- Sent by the client and not read by the server. -/
  uplink : Bytes := []
  /-- Written by the server and not received by the client. -/
  downlink : Bytes := []
  readBuffer : Bytes := []
  callbacks : Callbacks := Callbacks.store (fun _ => false) .messageCallback
  requests : List Request := []
  received : Bytes := []
  handled : List Bytes := []
  invocations : List Invocation := []

structure State (δ : Type) where
  server : ChatServer δ
  peer : ConnId → Peer := fun _ => {}

inductive Event (δ : Type) where
  | server (e : Server.Event δ) (sent : Nat)
  | request (c : ConnId) (r : Request)
  | recv (c : ConnId) (chunk : Bytes)
  | handle (c : ConnId)

variable {δ : Type}

/-! ## The steps -/

namespace State

def init (db : δ) : State δ where
  server := .init db

def modify (s : State δ) (c : ConnId) (f : Peer → Peer) : State δ :=
  { s with peer := Function.update s.peer c (f (s.peer c)) }

@[simp] theorem modify_server (s : State δ) (c : ConnId) (f : Peer → Peer) :
    (s.modify c f).server = s.server :=
  rfl

@[simp] theorem modify_peer_self (s : State δ) (c : ConnId) (f : Peer → Peer) :
    (s.modify c f).peer c = f (s.peer c) :=
  Function.update_self ..

@[simp] theorem modify_peer_of_ne (s : State δ) {c d : ConnId} (h : d ≠ c) (f : Peer → Peer) :
    (s.modify c f).peer d = s.peer d :=
  Function.update_of_ne h ..

/-- What holds of each client and its change holds of each afterwards. -/
theorem modify_forall {s : State δ} {c : ConnId} {f : Peer → Peer} {P : ConnId → Peer → Prop}
    (hs : ∀ d, P d (s.peer d)) (hc : P c (f (s.peer c))) (d : ConnId) :
    P d ((s.modify c f).peer d) := by
  by_cases hd : d = c
  · subst hd
    rw [modify_peer_self]
    exact hc
  · rw [modify_peer_of_ne s hd]
    exact hs d

/-- `bytes` are next on the stream to the server, and are taken off it. -/
def take (s : State δ) (c : ConnId) (bytes : Bytes) : Option (State δ) :=
  if bytes <+: (s.peer c).uplink then
    some (s.modify c fun p => { p with uplink := p.uplink.drop bytes.length })
  else none

/-- A read of the server completes with what its connection's stream holds. -/
def read (s : State δ) : Server.Event δ → Option (State δ)
  | .readHeader c header => s.take c header
  | .readBody c body _ => s.take c body
  | _ => some s

/-- What a callback of the server has put on the stream to client `d`. -/
def written (s : State δ) (sent : Nat) (d : ConnId) : Server.Event δ → Bytes
  | .writeOk c => if c = d then (s.server.conn c).writes.headD [] else []
  | .writeError c => if c = d then ((s.server.conn c).writes.headD []).take sent else []
  | _ => []

end State

/-- `login_callback_ = callback` and its like, then `send`. -/
def Peer.request (p : Peer) (r : Request) : Peer :=
  { p with
    uplink := p.uplink ++ encodeRequest r
    callbacks := r.slot.elim p.callbacks p.callbacks.store
    requests := p.requests ++ [r] }

def Peer.recv (p : Peer) (chunk : Bytes) : Peer :=
  { p with
    downlink := p.downlink.drop chunk.length
    readBuffer := p.readBuffer ++ chunk
    received := p.received ++ chunk }

/-- A round of the inner loop, with the packet it takes. -/
def Peer.handle (p : Peer) : Access (Option Peer) := do
  let some (packet, rest) ← takePacket p.readBuffer | return none
  let invocations ← p.callbacks.handlePacket packet
  return some { p with
    readBuffer := rest
    handled := p.handled ++ [packet]
    invocations := p.invocations ++ invocations }

def step (s : State δ) : Event δ → Option (State δ)
  | .server e sent => do
    let server ← Server.step .started s.server e
    let s' ← s.read e
    return {
      server
      peer := fun d => { s'.peer d with downlink := (s'.peer d).downlink ++ s.written sent d e } }
  | .request c r => some (s.modify c fun p => p.request r)
  | .recv c chunk =>
    if takePacket (s.peer c).readBuffer = some none ∧ chunk ≠ [] ∧ chunk <+: (s.peer c).downlink
    then some (s.modify c fun p => p.recv chunk)
    else none
  | .handle c => do
    let some p ← (s.peer c).handle | none
    return s.modify c fun _ => p

/-! ### What each event does -/

section

variable {s s' : State δ} {c : ConnId}

theorem take_eq_some {bytes : Bytes} (h : s.take c bytes = some s') (d : ConnId) :
    ∃ uplink, (if c = d then bytes else []) ++ uplink = (s.peer d).uplink
      ∧ s'.peer d = { s.peer d with uplink } := by
  unfold State.take at h
  split at h
  next hinitial =>
    cases h
    by_cases hd : c = d
    · subst hd
      refine ⟨(s.peer c).uplink.drop bytes.length, ?_, s.modify_peer_self c _⟩
      rw [if_pos rfl]
      exact (List.prefix_append_drop hinitial).symm
    · exact ⟨(s.peer d).uplink, by rw [if_neg hd, List.nil_append],
        s.modify_peer_of_ne (Ne.symm hd) _⟩
  next => cases h

theorem read_eq_some {e : Server.Event δ} (h : s.read e = some s') (d : ConnId) :
    ∃ uplink, e.bytesRead d ++ uplink = (s.peer d).uplink
      ∧ s'.peer d = { s.peer d with uplink } := by
  cases e with
  | readHeader c header => exact take_eq_some h d
  | readBody c body w => exact take_eq_some h d
  | _ =>
    cases h
    exact ⟨(s.peer d).uplink, rfl, rfl⟩

/-- A callback of the server takes from one stream and adds to the other. -/
theorem step_server {e : Server.Event δ} {sent : Nat} (h : step s (.server e sent) = some s') :
    Server.step .started s.server e = some s'.server ∧ ∀ d, ∃ uplink,
      e.bytesRead d ++ uplink = (s.peer d).uplink ∧ s'.peer d = { s.peer d with
        uplink
        downlink := (s.peer d).downlink ++ s.written sent d e } := by
  obtain ⟨server, hserver, h⟩ := Option.bind_eq_some_iff.mp h
  obtain ⟨m, hread, h⟩ := Option.bind_eq_some_iff.mp h
  cases h
  refine ⟨hserver, fun d => ?_⟩
  obtain ⟨uplink, huplink, hm⟩ := read_eq_some hread d
  refine ⟨uplink, huplink, ?_⟩
  dsimp only
  rw [hm]

theorem step_request {r : Request} (h : step s (.request c r) = some s') :
    s' = s.modify c fun p => p.request r :=
  (Option.some_inj.mp h).symm

theorem step_recv {chunk : Bytes} (h : step s (.recv c chunk) = some s') :
    ¬ wire.Complete (s.peer c).readBuffer ∧ chunk ≠ [] ∧ chunk <+: (s.peer c).downlink
      ∧ s' = s.modify c fun p => p.recv chunk := by
  obtain ⟨⟨hempty, hchunk, hinitial⟩, h⟩ := Option.ite_none_right_eq_some.mp h
  refine ⟨fun hcomplete => ?_, hchunk, hinitial, (Option.some_inj.mp h).symm⟩
  rw [takePacket_eq, if_pos hcomplete] at hempty
  cases hempty

theorem step_handle (h : step s (.handle c) = some s') : ∃ packet rest invocations,
    wire.IsFrame packet ∧ packet ++ rest = (s.peer c).readBuffer
      ∧ (s.peer c).callbacks.handlePacket packet = some invocations
      ∧ s' = s.modify c fun p => { p with
        readBuffer := rest
        handled := p.handled ++ [packet]
        invocations := p.invocations ++ invocations } := by
  obtain ⟨p, hp, h⟩ := Option.bind_eq_some_iff.mp h
  unfold Peer.handle at hp
  rw [takePacket_eq] at hp
  by_cases hcomplete : wire.Complete (s.peer c).readBuffer
  · rw [if_pos hcomplete] at hp
    obtain ⟨m, hm, hp⟩ := Option.bind_eq_some_iff.mp hp
    cases hm
    obtain ⟨invocations, hinvocations, hp⟩ := Option.bind_eq_some_iff.mp hp
    cases hp
    cases h
    exact ⟨_, _, invocations, Framing.isFrame_take hcomplete, List.take_append_drop ..,
      hinvocations, rfl⟩
  · rw [if_neg hcomplete] at hp
    obtain ⟨m, hm, hp⟩ := Option.bind_eq_some_iff.mp hp
    cases hm
    cases hp
    cases h

end

/-! ## What is in flight -/

/-- The server's part of a run. -/
def serverEvents (evs : List (Event δ)) : List (Server.Event δ) :=
  evs.filterMap fun
    | .server e _ => some e
    | _ => none

/-- A client, as its own records say. -/
structure Peer.Consistent (p : Peer) : Prop where
  bytes : p.handled.flatten ++ p.readBuffer = p.received
  frames : ∀ f ∈ p.handled, wire.IsFrame f
  callbacks : ∀ slot, p.callbacks slot = true ↔
    slot = .messageCallback ∨ ∃ r ∈ p.requests, r.slot = some slot

/-- The two ends of a connection: what the server has read and what is on the way to it
is what the client has sent, and what the client has received and what is on the way to
it is what the server has written. -/
structure Link (db : δ) (evs : List (Server.Event δ)) (server : ChatServer δ) (c : ConnId)
    (p : Peer) : Prop where
  client : p.Consistent
  uplink : evs.flatMap (Event.bytesRead c) ++ p.uplink = stream p.requests
  downlink : (server.conn c).queue.Streamed (p.received ++ p.downlink)
    (buffersOn c (executed .started db evs)).flatten

/-- What the events so far say about the streams. -/
structure Linked (db : δ) (evs : List (Event δ)) (s : State δ) : Prop where
  run : exec (Server.step .started) (.init db) (serverEvents evs) = some s.server
  link : ∀ c, Link db (serverEvents evs) s.server c (s.peer c)

theorem linked_init (db : δ) : Linked db [] (State.init db) where
  run := rfl
  link := fun _ => {
    client := {
      bytes := rfl
      frames := fun _ hf => absurd hf List.not_mem_nil
      callbacks := fun slot => by
        show Function.update (fun _ => false) Slot.messageCallback true slot = true
          ↔ slot = .messageCallback ∨ ∃ r ∈ ([] : List Request), r.slot = some slot
        rw [Function.update_apply]
        simp }
    uplink := rfl
    downlink := WriteQueue.streamed_empty }

theorem serverEvents_append (evs es : List (Event δ)) :
    serverEvents (evs ++ es) = serverEvents evs ++ serverEvents es :=
  List.filterMap_append ..

theorem serverEvents_snoc_server (evs : List (Event δ)) (e : Server.Event δ) (sent : Nat) :
    serverEvents (evs ++ [.server e sent]) = serverEvents evs ++ [e] :=
  List.filterMap_append ..

theorem writeHistory_of_exec {db : δ} {evs : List (Server.Event δ)} {t : ChatServer δ}
    (h : exec (Server.step .started) (.init db) evs = some t) : WriteHistory .started db evs t :=
  exec_induction (P := WriteHistory .started db) (writeHistory_init .started db)
    (fun hs hstep => hs.snoc hstep) h

/-- What a callback puts on a stream is what it does to the queue of the connection. -/
theorem written_eq (s : State δ) (sent : Nat) (c : ConnId) (e : Server.Event δ) :
    s.written sent c e
      = (s.server.conn c).queue.emitted sent (queueAction s.server c e) := by
  cases e with
  | writeOk d =>
    dsimp only [State.written, queueAction]
    split
    next hd =>
      subst hd
      rfl
    next => rfl
  | writeError d =>
    dsimp only [State.written, queueAction]
    split
    next hd =>
      subst hd
      rfl
    next => rfl
  | runPosted =>
    dsimp only [State.written, queueAction]
    split
    · rfl
    · split <;> rfl
  | _ => rfl

section

variable {db : δ} {evs : List (Event δ)} {s s' : State δ} {c : ConnId}

/-- The stream to a client over a callback of the server. -/
theorem Link.downlink_step {sevs : List (Server.Event δ)} {e : Server.Event δ}
    {t t' : ChatServer δ} {p : Peer} (hs : Link db sevs t c p)
    (hrun : exec (Server.step .started) (.init db) sevs = some t)
    (h : Server.step .started t e = some t') (sent : Nat) :
    (t'.conn c).queue.Streamed
      (p.received ++ (p.downlink ++ (t.conn c).queue.emitted sent (queueAction t c e)))
      (buffersOn c (executed .started db (sevs ++ [e]))).flatten := by
  have hhistory := writeHistory_of_exec hrun
  rw [hhistory.executed_snoc h, List.flatten_append, ← List.append_assoc]
  by_cases he : e = .accept c
  · -- The queue of a new connection was empty before, too.
    subst he
    have hfresh := (hhistory.fresh c (step_accept.mp h).2.1).1
    have hdownlink := hs.downlink
    rw [hfresh] at hdownlink
    rw [queue_of_accept h]
    simpa [queueAction, WriteQueue.emitted, WriteQueue.Action.enqueued] using hdownlink
  · obtain ⟨hqueue, henabled⟩ := step_queue he h
    rw [hqueue]
    exact WriteQueue.streamed_apply hs.downlink (hhistory.healthy_or_broken c) henabled sent

theorem Linked.server {e : Server.Event δ} {sent : Nat} (hs : Linked db evs s)
    (h : step s (.server e sent) = some s') : Linked db (evs ++ [.server e sent]) s' := by
  obtain ⟨hserver, hpeer⟩ := step_server h
  have hevents := serverEvents_snoc_server evs e sent
  refine ⟨?_, fun c => ?_⟩
  · rw [hevents]
    exact exec_append.mpr ⟨_, hs.run, exec_cons.mpr ⟨_, hserver, rfl⟩⟩
  · obtain ⟨uplink, huplink, hp⟩ := hpeer c
    have hc := hs.link c
    rw [hevents, hp]
    refine ⟨⟨hc.client.bytes, hc.client.frames, hc.client.callbacks⟩, ?_, ?_⟩
    · rw [bytesRead_snoc, List.append_assoc, huplink]
      exact hc.uplink
    · rw [written_eq]
      exact hc.downlink_step hs.run hserver sent

/-- What a client does leaves the server alone, and the other clients. -/
theorem Linked.client {e : Event δ} {f : Peer → Peer} (hs : Linked db evs s)
    (he : serverEvents (evs ++ [e]) = serverEvents evs)
    (hf : Link db (serverEvents evs) s.server c (f (s.peer c))) :
    Linked db (evs ++ [e]) (s.modify c f) := by
  refine ⟨by rw [he]; exact hs.run, ?_⟩
  rw [he]
  exact State.modify_forall hs.link hf

theorem serverEvents_snoc_client {evs : List (Event δ)} {e : Event δ}
    (he : ∀ e' sent, e ≠ .server e' sent) : serverEvents (evs ++ [e]) = serverEvents evs := by
  unfold serverEvents
  rw [List.filterMap_append]
  cases e with
  | server e' sent => exact absurd rfl (he e' sent)
  | _ => exact List.append_nil _

theorem Peer.Consistent.request {p : Peer} (hp : p.Consistent) (r : Request) :
    (p.request r).Consistent where
  bytes := hp.bytes
  frames := hp.frames
  callbacks := by
    intro slot
    show r.slot.elim p.callbacks p.callbacks.store slot = true ↔ _
    have hmem : (∃ r' ∈ p.requests ++ [r], r'.slot = some slot)
        ↔ (∃ r' ∈ p.requests, r'.slot = some slot) ∨ r.slot = some slot := by
      simp only [List.mem_append, List.mem_singleton, or_and_right, exists_or, exists_eq_left]
    show _ ↔ _ ∨ ∃ r' ∈ p.requests ++ [r], r'.slot = some slot
    rw [hmem, ← or_assoc, ← hp.callbacks slot]
    cases r.slot with
    | none => simp
    | some stored =>
      show Callbacks.store p.callbacks stored slot = true ↔ _
      rw [Callbacks.store, Function.update_apply]
      by_cases hslot : slot = stored
      · rw [if_pos hslot, hslot]
        simp
      · rw [if_neg hslot, or_iff_left fun heq => hslot (Option.some_inj.mp heq).symm]

theorem Linked.snoc {e : Event δ} (hs : Linked db evs s) (h : step s e = some s') :
    Linked db (evs ++ [e]) s' := by
  cases e with
  | server e sent => exact hs.server h
  | request c r =>
    rw [step_request h]
    have hc := hs.link c
    refine hs.client (serverEvents_snoc_client fun _ _ heq => by cases heq)
      ⟨hc.client.request r, ?_, hc.downlink⟩
    show _ ++ ((s.peer c).uplink ++ encodeRequest r) = stream ((s.peer c).requests ++ [r])
    rw [← List.append_assoc, hc.uplink, stream, stream, List.flatMap_append,
      List.flatMap_singleton]
  | recv c chunk =>
    obtain ⟨_, _, hinitial, rfl⟩ := step_recv h
    have hc := hs.link c
    refine hs.client (serverEvents_snoc_client fun _ _ heq => by cases heq)
      ⟨⟨?_, hc.client.frames, hc.client.callbacks⟩, hc.uplink, ?_⟩
    · show (s.peer c).handled.flatten ++ ((s.peer c).readBuffer ++ chunk) = _
      rw [← List.append_assoc, hc.client.bytes]
      rfl
    · -- The piece only moves from the stream to what was received.
      show WriteQueue.Streamed _ ((s.peer c).received ++ chunk
        ++ (s.peer c).downlink.drop chunk.length) _
      rw [List.append_assoc, ← List.prefix_append_drop hinitial]
      exact hc.downlink
  | handle c =>
    obtain ⟨packet, rest, invocations, hframe, hsplit, _, rfl⟩ := step_handle h
    have hc := hs.link c
    refine hs.client (serverEvents_snoc_client fun _ _ heq => by cases heq)
      ⟨⟨?_, fun f hf => ?_, hc.client.callbacks⟩, hc.uplink, hc.downlink⟩
    · show ((s.peer c).handled ++ [packet]).flatten ++ rest = (s.peer c).received
      rw [List.flatten_append, List.flatten_singleton, List.append_assoc, hsplit, hc.client.bytes]
    · rcases List.mem_append.mp hf with hf | hf
      · exact hc.client.frames f hf
      · rw [List.mem_singleton.mp hf]
        exact hframe

end

/-! ## To the server -/

instance (r : Request) : Decidable (Readable r) :=
  inferInstanceAs (Decidable (_ ∧ _))

/-- The requests in front of the first that the server will not read. -/
def readable (rs : List Request) : List Request :=
  rs.takeWhile (decide <| Readable ·)

theorem readable_of_mem {rs : List Request} {r : Request} (h : r ∈ readable rs) : Readable r :=
  of_decide_eq_true (List.mem_takeWhile_imp (p := (decide <| Readable ·)) h)

theorem mem_of_readable {rs : List Request} {r : Request} (h : r ∈ readable rs) : r ∈ rs :=
  (List.takeWhile_prefix _).subset h

section

variable {r : Request} {rs : List Request}

theorem isHeader_headerOf (h : r.body.length < 2 ^ 32) :
    IsHeader (headerOf r) (UInt32.ofNat r.body.length) := by
  refine ⟨length_headerOf r, ?_⟩
  have hdrop : (headerOf r).drop 3 = BigEndian.toBytes 4 (r.body.length % 2 ^ 32) ++ [] := by
    rw [headerOf_eq, List.append_nil]
    rfl
  rw [readUint32_of_drop hdrop, Nat.mod_eq_of_lt h]

theorem toNat_bodyLength (h : r.body.length < 2 ^ 32) :
    r.body.length = (UInt32.ofNat r.body.length).toNat := by
  rw [UInt32.toNat_ofNat', Nat.mod_eq_of_lt h]

theorem isFrame_encodeRequest (h : r.body.length < 2 ^ 32) :
    wire.IsFrame (encodeRequest r) := by
  rw [← headerOf_append_body]
  exact (isHeader_headerOf h).isFrame (toNat_bodyLength h)

theorem acceptedFrame_encodeRequest (h : r.body.length < 2 ^ 32) :
    acceptedFrame (encodeRequest r) = true ↔ Readable r := by
  rw [← headerOf_append_body, (isHeader_headerOf h).acceptedFrame_iff (toNat_bodyLength h)]
  exact acceptable_iff h

/-- The server dispatches a client's stream up to the first request it will not read. -/
theorem dispatches_stream (hlen : ∀ r ∈ rs, r.body.length < 2 ^ 32) :
    dispatches (stream rs) = (readable rs).map encodeRequest := by
  have hsplit : stream rs = ((readable rs).map encodeRequest).flatten
      ++ stream (rs.dropWhile (decide <| Readable ·)) := by
    rw [← List.flatMap_def]
    show _ = stream (readable rs) ++ stream _
    rw [stream, stream, stream, ← List.flatMap_append]
    exact congrArg (List.flatMap _) (List.takeWhile_append_dropWhile).symm
  rw [hsplit]
  refine Framing.parseWhile_append (fun f hf => ?_) fun _ => ?_
  · obtain ⟨r, hr, rfl⟩ := List.mem_map.mp hf
    have hfits := hlen r (mem_of_readable hr)
    exact ⟨isFrame_encodeRequest hfits,
      (acceptedFrame_encodeRequest hfits).mpr (readable_of_mem hr)⟩
  · -- What follows starts with a frame that is refused.
    cases hrest : rs.dropWhile (decide <| Readable ·) with
    | nil =>
      rename_i hcomplete
      rw [hrest] at hcomplete
      exact absurd hcomplete not_complete_nil
    | cons r rest =>
      have hmem : r ∈ rs := by
        refine (List.dropWhile_suffix (decide <| Readable ·)).subset ?_
        rw [hrest]
        exact List.mem_cons_self ..
      have hrefused : ¬ Readable r := by
        have hhead := List.head?_dropWhile_not (decide <| Readable ·) rs
        rw [hrest] at hhead
        exact of_decide_eq_false hhead
      have hfits := hlen r hmem
      obtain ⟨_, htotal⟩ := (isFrame_encodeRequest hfits).complete_append (stream rest)
      show acceptedFrame (((encodeRequest r) ++ stream rest).take
        (wire.total (encodeRequest r ++ stream rest))) = false
      rw [htotal, List.take_left]
      exact Bool.eq_false_iff.mpr fun haccepted =>
        hrefused ((acceptedFrame_encodeRequest hfits).mp haccepted)

theorem decode_encodeRequest (h : r.body.length < 2 ^ 32) :
    Server.decode (encodeRequest r) = some (some (packetOf r)) := by
  have hencode : encodeRequest r = Server.encode (packetOf r) := by
    rw [encodeRequest_eq, ← encode_eq_client]
    rfl
  rw [hencode]
  exact Server.decode_encode h

end

section

variable {db : δ} {evs : List (Event δ)} {s : State δ} {c : ConnId}

theorem packet_injective : Function.Injective fun packet : Packet => some (some packet) :=
  fun _ _ heq => Option.some_inj.mp (Option.some_inj.mp heq)

theorem decode_readable (hlen : ∀ r ∈ (s.peer c).requests, r.body.length < 2 ^ 32) :
    (dispatches (stream (s.peer c).requests)).map Server.decode
      = ((readable (s.peer c).requests).map packetOf).map fun packet => some (some packet) := by
  rw [dispatches_stream hlen, List.map_map, List.map_map]
  refine List.map_congr_left fun r hr => ?_
  exact decode_encodeRequest (hlen r (mem_of_readable hr))

/-- **What is handed over are the client's first requests**, at any time. -/
theorem Linked.handledOn_isPrefix (hs : Linked db evs s)
    (hlen : ∀ r ∈ (s.peer c).requests, r.body.length < 2 ^ 32) :
    handledOn c s.server.calls <+: (readable (s.peer c).requests).map packetOf := by
  rw [← List.prefix_map_iff_of_injective packet_injective, handledOn_of_exec hs.run,
    ← decode_readable hlen, ← (hs.link c).uplink]
  exact (Framing.parseWhile_prefix ..).map _

/-- Nothing that the client has sent can still be handed over. -/
structure Drained (evs : List (Event δ)) (s : State δ) (c : ConnId) : Prop where
  accept : .accept c ∈ serverEvents evs
  reads : ∀ op, .readError c op ∉ serverEvents evs
  starved : ∀ op ∈ (s.server.conn c).reads, (s.peer c).uplink.length < op.size

theorem Linked.handledOn_eq (hs : Linked db evs s)
    (hlen : ∀ r ∈ (s.peer c).requests, r.body.length < 2 ^ 32) (hdrained : Drained evs s c) :
    handledOn c s.server.calls = (readable (s.peer c).requests).map packetOf := by
  refine List.map_injective_iff.mpr packet_injective ?_
  rw [handledOn_of_exec hs.run, ← decode_readable hlen, ← (hs.link c).uplink,
    dispatches_of_starved hs.run hdrained.accept hdrained.reads hdrained.starved]

end

/-! ## To the client -/

section

variable {db : δ} {evs : List (Event δ)} {s : State δ} {c : ConnId}

/-- What the server has written is the beginning of what it has sent. -/
theorem Linked.received_isPrefix (hs : Linked db evs s) (c : ConnId) :
    (s.peer c).received ++ (s.peer c).downlink
      <+: (buffersOn c (sendsOf s.server.calls)).flatten := by
  rw [← (writeHistory_of_exec hs.run).fifo, buffersOn_append, List.flatten_append]
  exact (hs.link c).downlink.isPrefix.trans (List.prefix_append ..)

/-- **What the client has taken out are the first buffers**, if every buffer is a frame. -/
theorem Linked.handled_isPrefix (hs : Linked db evs s)
    (hframes : ∀ b ∈ buffersOn c (sendsOf s.server.calls), wire.IsFrame b) :
    (s.peer c).handled <+: buffersOn c (sendsOf s.server.calls) := by
  have hclient := (hs.link c).client
  refine Framing.isPrefix_of_flatten hclient.frames hframes ?_
  refine List.IsPrefix.trans ?_ ((List.prefix_append ..).trans (hs.received_isPrefix c))
  rw [← hclient.bytes]
  exact List.prefix_append ..

/-- Everything that the server has sent has arrived and was taken out. -/
structure Delivered (evs : List (Event δ)) (s : State δ) (c : ConnId) : Prop where
  posted : ∀ p ∈ s.server.posted, p.1 ≠ c
  writes : (s.server.conn c).writes = []
  healthy : .writeError c ∉ serverEvents evs
  downlink : (s.peer c).downlink = []
  readBuffer : ¬ wire.Complete (s.peer c).readBuffer

theorem Linked.handled_eq (hs : Linked db evs s)
    (hframes : ∀ b ∈ buffersOn c (sendsOf s.server.calls), wire.IsFrame b)
    (hdelivered : Delivered evs s c) :
    (s.peer c).handled = buffersOn c (sendsOf s.server.calls) := by
  have hhistory := writeHistory_of_exec hs.run
  have hbuffer : (s.server.conn c).queue.buffer = [] := by
    have hhealthy := (hhistory.healthy c hdelivered.healthy).writing_iff
    exact Classical.byContradiction fun hne => hhealthy.mpr hne hdelivered.writes
  have hposted : buffersOn c s.server.posted = [] := by
    unfold buffersOn
    rw [List.filter_eq_nil_iff.mpr fun p hp => by simpa using hdelivered.posted p hp]
    rfl
  have hall := (hs.link c).downlink.eq_of_nil hbuffer
  rw [hdelivered.downlink, List.append_nil] at hall
  have hclient := (hs.link c).client
  have hparse : wire.IsParse (buffersOn c (sendsOf s.server.calls)).flatten (s.peer c).handled
      (s.peer c).readBuffer := by
    refine ⟨?_, hclient.frames, hdelivered.readBuffer⟩
    rw [hclient.bytes, hall, ← hhistory.fifo, buffersOn_append, hposted, List.append_nil]
  exact congrArg Prod.fst (hparse.unique.symm.trans (Framing.isParse_flatten hframes).unique)

end

end System

end QQChat
