import QQChat.Lib.Trace
import QQChat.Server.Handlers

/-!
# The server's event loop

One step of the server is one callback of the `io_context`: an accepted
connection, a completed or failed read, a posted `send`, a completed or failed
write (`ChatServer::do_accept`, `Connection::do_read_header`, `do_read_body`,
`send` and `do_write`), or the end of the loop (`ChatServer::stop`).

Mirroring notes:
- An operation completes at any time while it is in flight, a read with any
  bytes that fill its buffer exactly. `none` is an event that cannot happen, or
  a read outside a vector.
- `stop` closes nothing and cancels nothing: the other operations of the
  connection stay in flight, and nothing in the callbacks looks at
  `connections_` before going on.
- Nothing calls `Connection::start`, so as written no connection is ever read
  from (`Wiring.asWritten`). `Wiring.started` is the server in which `do_accept`
  calls it after `ConnectionManager::start`.

Each event has one lemma that says when it happens and what it does
(`step_accept`, `step_readHeader`, …). Every invariant is proved from these.
-/

namespace QQChat.Server

open ChatServer

variable {δ : Type}

/-- Whether `do_accept` starts the connections it registers. -/
inductive Wiring where
  | asWritten
  | started
  deriving DecidableEq, Repr

inductive Event (δ : Type) where
  | accept (c : ConnId)
  | acceptError
  | readHeader (c : ConnId) (header : Bytes)
  | readBody (c : ConnId) (body : Bytes) (w : World δ)
  | readError (c : ConnId) (op : ReadOp)
  | runPosted
  | writeOk (c : ConnId)
  | writeError (c : ConnId)
  | shutdown

/-- An event dispatches a packet, or it does not. -/
theorem Event.readBody_or_ne {δ : Type} (e : Event δ) :
    (∃ c body w, e = .readBody c body w) ∨ ∀ c body w, e ≠ .readBody c body w := by
  cases e with
  | readBody c body w => exact Or.inl ⟨c, body, w, rfl⟩
  | _ => exact Or.inr fun _ _ _ heq => nomatch heq

/-! ## The callbacks -/

/-- The packet in a connection's two buffers. -/
def Connection.packet (conn : Connection) : Access Packet := do
  let version ← conn.headerBuffer[0]?
  let command ← readUint16 conn.headerBuffer 1
  return { version, command := ⟨command⟩, data := conn.bodyBuffer }

/-- The lengths a body is read for. -/
def Acceptable (bodyLength : UInt32) : Prop :=
  0 < bodyLength ∧ bodyLength < 1024 * 1024

instance (bodyLength : UInt32) : Decidable (Acceptable bodyLength) :=
  inferInstanceAs (Decidable (_ ∧ _))

namespace ChatServer

/-- `do_accept`'s callback with a new socket. -/
def doAccept (wiring : Wiring) (s : ChatServer δ) (c : ConnId) : ChatServer δ :=
  let s := { s with accepted := insert c s.accepted, conn := Function.update s.conn c {} }
  let s := s.start c
  match wiring with
  | .asWritten => s
  | .started => s.doReadHeader c

/-- A read completes and leaves its bytes in the buffer. -/
def headerRead (s : ChatServer δ) (c : ConnId) (header : Bytes) : ChatServer δ :=
  s.modify c fun conn =>
    { conn with headerBuffer := header, reads := conn.reads.erase .header }

def bodyRead (s : ChatServer δ) (c : ConnId) (body : Bytes) : ChatServer δ :=
  s.modify c fun conn =>
    { conn with bodyBuffer := body, reads := conn.reads.erase (.body body.length) }

/-- The body buffer takes the announced size and is read into. -/
def expectBody (s : ChatServer δ) (c : ConnId) (bodyLength : Nat) : ChatServer δ :=
  let s := s.modify c fun conn => { conn with bodyBuffer := resize conn.bodyBuffer bodyLength }
  s.doReadBody c bodyLength

/-- `do_read_header`'s callback. -/
def onHeader (s : ChatServer δ) (c : ConnId) (header : Bytes) : Access (ChatServer δ) := do
  let s := s.headerRead c header
  let bodyLength ← readUint32 (s.conn c).headerBuffer 3
  if Acceptable bodyLength then
    return s.expectBody c bodyLength.toNat
  else
    return s.stop c

/-- `do_read_body`'s callback. -/
def onBody (w : World δ) (s : ChatServer δ) (c : ConnId) (body : Bytes) :
    Access (ChatServer δ) := do
  let s := s.bodyRead c body
  let packet ← (s.conn c).packet
  let s ← handleMessage w s c packet
  return s.doReadHeader c

/-- Either callback with an error. -/
def onReadError (s : ChatServer δ) (c : ConnId) (op : ReadOp) : ChatServer δ :=
  (s.modify c fun conn => { conn with reads := conn.reads.erase op }).stop c

/-- The lambda that `send` posts. -/
def onPosted (s : ChatServer δ) (c : ConnId) (data : Bytes) : ChatServer δ :=
  let writeInProgress := (s.conn c).writeBuffer ≠ []
  let s := s.modify c fun conn => { conn with writeBuffer := conn.writeBuffer ++ [data] }
  if writeInProgress then s
  else s.doWrite c ((s.conn c).writeBuffer.headD [])

/-- `do_write`'s callback without an error. -/
def onWritten (s : ChatServer δ) (c : ConnId) : ChatServer δ :=
  let s := s.modify c fun conn =>
    { conn with writeBuffer := conn.writeBuffer.tail, writes := conn.writes.tail }
  match (s.conn c).writeBuffer with
  | [] => s
  | front :: _ => s.doWrite c front

/-- `do_write`'s callback with an error: the buffer stays in the queue. -/
def onWriteError (s : ChatServer δ) (c : ConnId) : ChatServer δ :=
  (s.modify c fun conn => { conn with writes := conn.writes.tail }).stop c

end ChatServer

/-! ## The steps -/

def step (wiring : Wiring) (s : ChatServer δ) (e : Event δ) : Option (ChatServer δ) :=
  if s.running then
    match e with
    | .accept c => if c ∉ s.accepted then some (s.doAccept wiring c) else none
    | .acceptError => some s
    | .readHeader c header =>
      if .header ∈ (s.conn c).reads ∧ header.length = HEADER_SIZE then s.onHeader c header
      else none
    | .readBody c body w =>
      if .body body.length ∈ (s.conn c).reads then onBody w s c body else none
    | .readError c op => if op ∈ (s.conn c).reads then some (s.onReadError c op) else none
    | .runPosted =>
      match s.posted with
      | [] => none
      | (c, data) :: posted => some ({ s with posted }.onPosted c data)
    | .writeOk c => if (s.conn c).writes ≠ [] then some (s.onWritten c) else none
    | .writeError c => if (s.conn c).writes ≠ [] then some (s.onWriteError c) else none
    | .shutdown => some { s.stopAll with running := false }
  else none

/-! ## What each event does -/

section

variable {wiring : Wiring} {s s' : ChatServer δ} {c : ConnId}

theorem step_accept : step wiring s (.accept c) = some s' ↔
    s.running = true ∧ c ∉ s.accepted ∧ s' = s.doAccept wiring c := by
  simp only [step, Option.ite_none_right_eq_some, Option.some_inj, eq_comm (b := s')]

theorem step_acceptError : step wiring s .acceptError = some s' ↔
    s.running = true ∧ s' = s := by
  simp only [step, Option.ite_none_right_eq_some, Option.some_inj, eq_comm (b := s')]

theorem step_readError {op : ReadOp} : step wiring s (.readError c op) = some s' ↔
    s.running = true ∧ op ∈ (s.conn c).reads ∧ s' = s.onReadError c op := by
  simp only [step, Option.ite_none_right_eq_some, Option.some_inj, eq_comm (b := s')]

theorem step_writeOk : step wiring s (.writeOk c) = some s' ↔
    s.running = true ∧ (s.conn c).writes ≠ [] ∧ s' = s.onWritten c := by
  simp only [step, Option.ite_none_right_eq_some, Option.some_inj, eq_comm (b := s')]

theorem step_writeError : step wiring s (.writeError c) = some s' ↔
    s.running = true ∧ (s.conn c).writes ≠ [] ∧ s' = s.onWriteError c := by
  simp only [step, Option.ite_none_right_eq_some, Option.some_inj, eq_comm (b := s')]

theorem step_shutdown : step wiring s .shutdown = some s' ↔
    s.running = true ∧ s' = { s.stopAll with running := false } := by
  simp only [step, Option.ite_none_right_eq_some, Option.some_inj, eq_comm (b := s')]

theorem step_runPosted : step wiring s .runPosted = some s' ↔
    s.running = true ∧ ∃ c data posted, s.posted = (c, data) :: posted
      ∧ s' = { s with posted }.onPosted c data := by
  simp only [step, Option.ite_none_right_eq_some]
  refine and_congr_right fun _ => ?_
  split
  next h => exact ⟨(fun hs => nomatch hs), fun ⟨_, _, _, hs, _⟩ => by rw [hs] at h; cases h⟩
  next c data posted h =>
    constructor
    · intro hs
      cases hs
      exact ⟨c, data, posted, h, rfl⟩
    · intro ⟨c', data', posted', h', hs'⟩
      rw [h'] at h
      cases h
      rw [hs']

/-- A header completes: it announces a body, or the connection is stopped. -/
theorem step_readHeader {header : Bytes} : step wiring s (.readHeader c header) = some s' ↔
    s.running = true ∧ (.header ∈ (s.conn c).reads ∧ header.length = HEADER_SIZE)
      ∧ ∃ bodyLength, readUint32 header 3 = some bodyLength
        ∧ s' = if Acceptable bodyLength then (s.headerRead c header).expectBody c bodyLength.toNat
            else (s.headerRead c header).stop c := by
  simp only [step, Option.ite_none_right_eq_some]
  refine and_congr_right fun _ => and_congr_right fun _ => ?_
  have hbuf : ((s.headerRead c header).conn c).headerBuffer = header := by
    rw [headerRead, modify_conn_self]
  simp only [onHeader, hbuf, Option.bind_eq_bind, Option.bind_eq_some_iff]
  refine exists_congr fun bodyLength => and_congr_right fun _ => ?_
  split <;> exact ⟨fun h => (Option.some_inj.mp h).symm, fun h => congrArg some h.symm⟩

/-- A body completes: the packet is handed to `handle_message`, and the next
header is read. -/
theorem step_readBody {body : Bytes} {w : World δ} :
    step wiring s (.readBody c body w) = some s' ↔
      s.running = true ∧ .body body.length ∈ (s.conn c).reads
        ∧ ∃ packet r, ((s.bodyRead c body).conn c).packet = some packet
          ∧ decodeRequest packet = some r
          ∧ s' = (r.elim ((s.bodyRead c body).called c packet)
              (handleRequest w ((s.bodyRead c body).called c packet) c)).doReadHeader c := by
  simp only [step, Option.ite_none_right_eq_some]
  refine and_congr_right fun _ => and_congr_right fun _ => ?_
  simp only [onBody, Option.bind_eq_bind, Option.bind_eq_some_iff, handleMessage_eq_some]
  constructor
  · intro ⟨packet, hpacket, t, ⟨r, hr, ht⟩, hs⟩
    rw [ht] at hs
    exact ⟨packet, r, hpacket, hr, (Option.some_inj.mp hs).symm⟩
  · intro ⟨packet, r, hpacket, hr, hs'⟩
    exact ⟨packet, hpacket, _, ⟨r, hr, rfl⟩, congrArg some hs'.symm⟩

/-- The loop runs until it is shut down. -/
theorem running_of_step {e : Event δ} (h : step wiring s e = some s') (he : e ≠ .shutdown) :
    s'.running = true := by
  cases e with
  | accept c =>
    obtain ⟨hrun, _, rfl⟩ := step_accept.mp h
    cases wiring <;> exact hrun
  | acceptError =>
    obtain ⟨hrun, rfl⟩ := step_acceptError.mp h
    exact hrun
  | readHeader c header =>
    obtain ⟨hrun, _, _, _, rfl⟩ := step_readHeader.mp h
    split <;> exact hrun
  | readBody c body w =>
    obtain ⟨hrun, _, packet, r, _, _, rfl⟩ := step_readBody.mp h
    exact (elim_handled w ((s.bodyRead c body).called c packet) c r).running.trans hrun
  | readError c op =>
    obtain ⟨hrun, _, rfl⟩ := step_readError.mp h
    exact hrun
  | runPosted =>
    obtain ⟨hrun, c, data, posted, _, rfl⟩ := step_runPosted.mp h
    dsimp only [onPosted]
    split <;> exact hrun
  | writeOk c =>
    obtain ⟨hrun, _, rfl⟩ := step_writeOk.mp h
    dsimp only [onWritten]
    split <;> exact hrun
  | writeError c =>
    obtain ⟨hrun, _, rfl⟩ := step_writeError.mp h
    exact hrun
  | shutdown => exact absurd rfl he

/-- Only a dispatched packet touches the tables and the cache. -/
theorem step_stored {e : Event δ} (h : step wiring s e = some s')
    (he : ∀ c body w, e ≠ .readBody c body w) : s'.db = s.db ∧ s'.cache = s.cache := by
  cases e with
  | accept c =>
    obtain ⟨_, _, rfl⟩ := step_accept.mp h
    cases wiring <;> exact ⟨rfl, rfl⟩
  | acceptError =>
    obtain ⟨_, rfl⟩ := step_acceptError.mp h
    exact ⟨rfl, rfl⟩
  | readHeader c header =>
    obtain ⟨_, _, _, _, rfl⟩ := step_readHeader.mp h
    split <;> exact ⟨rfl, rfl⟩
  | readBody c body w => exact absurd rfl (he c body w)
  | readError c op =>
    obtain ⟨_, _, rfl⟩ := step_readError.mp h
    exact ⟨rfl, rfl⟩
  | runPosted =>
    obtain ⟨_, c, data, posted, _, rfl⟩ := step_runPosted.mp h
    dsimp only [onPosted]
    split <;> exact ⟨rfl, rfl⟩
  | writeOk c =>
    obtain ⟨_, _, rfl⟩ := step_writeOk.mp h
    dsimp only [onWritten]
    split <;> exact ⟨rfl, rfl⟩
  | writeError c =>
    -- `stop` erases the entry of the registry and leaves the cache as it is.
    obtain ⟨_, _, rfl⟩ := step_writeError.mp h
    exact ⟨rfl, rfl⟩
  | shutdown =>
    obtain ⟨_, rfl⟩ := step_shutdown.mp h
    exact ⟨rfl, rfl⟩

end

/-! ## Requests as events, and a small world -/

/-- The two reads that a request of the client completes. -/
def received (c : ConnId) (w : World δ) (r : Request) : List (Event δ) :=
  [.readHeader c ((Client.encodeRequest r).take HEADER_SIZE), .readBody c r.body w]

theorem world_of_mem_received {c c' : ConnId} {w w' : World δ} {r : Request} {body : Bytes}
    (h : .readBody c' body w' ∈ received c w r) : w' = w := by
  rcases List.mem_cons.mp h with heq | hmem
  · cases heq
  · cases List.mem_singleton.mp hmem
    rfl

/-- A world with two accounts, `a` and `b`, of users 1 and 2. Messages are
stored; everything else fails. -/
def twoAccounts : World Unit where
  db := {
    verifyUser := fun _ username _ =>
      if username = [97] then some ⟨1, username⟩
      else if username = [98] then some ⟨2, username⟩
      else none
    getUserById := fun _ _ => none
    addFriend := fun _ _ _ => none
    getFriends := fun _ _ => none
    sendMessage := fun _ _ _ _ => some ((), 1)
    registerUser := fun _ _ _ _ _ => none
    usernameExists := fun _ _ => false
    getSecurityQuestion := fun _ _ => none
    resetPassword := fun _ _ _ => none }
  redis := fun _ => true
  now := 0
  sha256 := id

def loginA (c : ConnId) : List (Event Unit) :=
  received c twoAccounts (.login { username := [97], password := [] })

def loginB (c : ConnId) : List (Event Unit) :=
  received c twoAccounts (.login { username := [98], password := [] })

end QQChat.Server
