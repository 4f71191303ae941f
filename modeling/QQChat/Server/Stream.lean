import QQChat.Codec.Bounds
import QQChat.Server.Stopped

/-!
# From the client's stream to `handle_message`

What a client sends on a connection is the concatenation of its requests'
frames; the server reads it as a header, then as many bytes as the header says,
then a header again. This module is the agreement of the two: fed with the
stream, a connection calls `handle_message` once per request, in order, with the
request's command and body (`delivers_iff`) — unless there is a friend list
request among them. Its body is empty, and `do_read_header` stops the connection
on an empty body just as on one of a mebibyte or more.

The runs are those of the whole server: other connections, writes and posted
sends happen in between. `InSync` is the invariant: what the connection still
has to read is a sequence of frames, possibly behind the body of one whose header
it has.
-/

namespace QQChat.Server

open BigEndian Trace ChatServer

variable {δ : Type}

/-! ## Frames and packets -/

/-- The packet `do_read_body` makes of a request's frame. -/
def packetOf (r : Request) : Packet where
  version := VERSION
  command := r.command
  data := r.body

def headerOf (r : Request) : Bytes :=
  (Client.encodeRequest r).take HEADER_SIZE

/-- What the client sends. -/
def stream (rs : List Request) : Bytes :=
  rs.flatMap Client.encodeRequest

/-- A body that `do_read_header` asks for. -/
def Readable (r : Request) : Prop :=
  0 < r.body.length ∧ r.body.length < 2 ^ 20

theorem headerOf_append_body (r : Request) : headerOf r ++ r.body = Client.encodeRequest r :=
  List.take_append_drop ..

theorem stream_cons (r : Request) (rs : List Request) :
    stream (r :: rs) = headerOf r ++ (r.body ++ stream rs) := by
  rw [← List.append_assoc, headerOf_append_body]
  exact List.flatMap_cons ..

theorem headerOf_eq (r : Request) : headerOf r = VERSION :: (toBytes 2 r.command.toUInt16.toNat
    ++ toBytes 4 (r.body.length % 2 ^ 32)) := by
  unfold headerOf
  rw [encodeRequest_eq, Client.encode_eq]
  rfl

theorem length_headerOf (r : Request) : (headerOf r).length = HEADER_SIZE := by
  rw [headerOf_eq, List.length_cons, List.length_append, length_toBytes, length_toBytes]
  rfl

/-- The server reads off the header what the client wrote there. -/
theorem readUint32_headerOf {r : Request} (h : r.body.length < 2 ^ 20) :
    readUint32 (headerOf r) 3 = some (UInt32.ofNat r.body.length) := by
  have hdrop : (headerOf r).drop 3 = toBytes 4 (r.body.length % 2 ^ 32) ++ [] := by
    rw [headerOf_eq, List.append_nil]
    rfl
  rw [readUint32_of_drop hdrop, Nat.mod_eq_of_lt (by omega)]

theorem packet_headerOf {r : Request} {conn : Connection} (h : conn.headerBuffer = headerOf r) :
    conn.packet = some ⟨VERSION, r.command, conn.bodyBuffer⟩ := by
  have hdrop : (headerOf r).drop 1 = toBytes 2 r.command.toUInt16.toNat
      ++ toBytes 4 (r.body.length % 2 ^ 32) := by
    rw [headerOf_eq]
    rfl
  have hversion : (headerOf r)[0]? = some VERSION := by rw [headerOf_eq]; rfl
  unfold Connection.packet
  rw [h, hversion, readUint16_of_drop hdrop, UInt16.ofNat_toNat]
  rfl

theorem acceptable_iff {n : Nat} (h : n < 2 ^ 32) :
    Acceptable (UInt32.ofNat n) ↔ 0 < n ∧ n < 2 ^ 20 := by
  have hn : (UInt32.ofNat n).toNat = n := by
    rw [UInt32.toNat_ofNat', Nat.mod_eq_of_lt h]
  unfold Acceptable
  rw [UInt32.lt_iff_toNat_lt, UInt32.lt_iff_toNat_lt, hn]
  exact Iff.rfl

/-- A readable request's header is answered by a read of its body. -/
theorem announced_headerOf {r : Request} (h : Readable r) :
    announced (headerOf r) = [.body r.body.length] := by
  have hlt : r.body.length < 2 ^ 32 := Nat.lt_trans h.2 (by decide)
  unfold announced
  rw [readUint32_headerOf h.2]
  dsimp only
  rw [if_pos ((acceptable_iff hlt).mpr h), UInt32.toNat_ofNat', Nat.mod_eq_of_lt hlt]

/-- A readable request's header does not stop the connection. -/
theorem stopped_headerOf {r : Request} (h : Readable r) (c : ConnId) :
    (Event.readHeader (δ := δ) c (headerOf r)).stopped ≠ some c := by
  intro hstopped
  have hnil := (announced_spec (length_headerOf r)).2.mpr hstopped
  rw [announced_headerOf h] at hnil
  cases hnil

/-- The packet made of a request's header and body is the request's. -/
theorem packet_bodyRead {s : ChatServer δ} {c : ConnId} {r : Request}
    (h : (s.conn c).headerBuffer = headerOf r) :
    ((s.bodyRead c r.body).conn c).packet = some (packetOf r) := by
  have hbuffer : ((s.bodyRead c r.body).conn c).headerBuffer = headerOf r := by
    rw [bodyRead, modify_conn_self]
    exact h
  rw [packet_headerOf hbuffer, bodyRead, modify_conn_self]
  rfl

/-- Every request but the friend list's has a body. -/
theorem body_length_pos {r : Request} (h : r ≠ .friendList) : 0 < r.body.length := by
  cases r with
  | login req => rw [body_login, List.length_append, length_field]; omega
  | message req => rw [body_message, List.length_append, length_toBytes]; omega
  | friendList => exact absurd rfl h
  | addFriend friendId => rw [body_addFriend, length_toBytes]; omega
  | register req => rw [body_register, List.length_append, length_field]; omega
  | securityQuestion req => rw [body_securityQuestion, length_field]; omega
  | resetPassword req => rw [body_resetPassword, List.length_append, length_field]; omega
  | versionCheck req => rw [body_versionCheck, length_toBytes]; omega

/-! ## A connection that is fed -/

/-- The bytes of `c`'s stream that an event consumes. -/
def Event.bytesRead (c : ConnId) : Event δ → Bytes
  | .readHeader d header => if d = c then header else []
  | .readBody d body _ => if d = c then body else []
  | _ => []

/-- The end of `c` from outside: a failed read or write, or the end of the server. -/
def Event.Disturbs (c : ConnId) (e : Event δ) : Prop :=
  (∃ op, e = .readError c op) ∨ e = .writeError c ∨ e = .shutdown

/-- The packets of `c` that were handed to `handle_message`. -/
def handledOn (c : ConnId) (calls : List Call) : List Packet :=
  calls.filterMap fun call =>
    match call with
    | .handleMessage d packet => if d = c then some packet else none
    | _ => none

/-- The connection is registered and waits for its first header. -/
structure Ready (s : ChatServer δ) (c : ConnId) : Prop where
  running : s.running = true
  accepted : c ∈ s.accepted
  connected : c ∈ s.connections
  reads : (s.conn c).reads = [.header]

/-- A run from `s` to `t` in which `c` reads the stream of `rs` up to `rest`,
undisturbed, and no read of `c` in flight can be filled from `rest`. -/
structure Feeds (s : ChatServer δ) (c : ConnId) (rs : List Request) (evs : List (Event δ))
    (t : ChatServer δ) (rest : Bytes) : Prop where
  exec : exec (step .started) s evs = some t
  undisturbed : ∀ e ∈ evs, ¬ e.Disturbs c
  bytes : evs.flatMap (Event.bytesRead c) ++ rest = stream rs
  starved : ∀ op ∈ (t.conn c).reads, rest.length < op.size

/-- What the connection has still to read, and the packets it will make of it:
whole frames, or the body of a frame whose header it has and whole frames. -/
inductive InSync (s : ChatServer δ) (c : ConnId) : Bytes → List Packet → Prop
  | header {rs : List Request} (hrs : ∀ r ∈ rs, Readable r)
      (hreads : (s.conn c).reads = [.header]) : InSync s c (stream rs) (rs.map packetOf)
  | body {r : Request} {rs : List Request} (hr : Readable r) (hrs : ∀ r ∈ rs, Readable r)
      (hinput : (s.conn c).input = ⟨headerOf r, [.body r.body.length]⟩) :
      InSync s c (r.body ++ stream rs) (packetOf r :: rs.map packetOf)

section

variable {s s' : ChatServer δ} {c : ConnId} {e : Event δ} {rest : Bytes} {ps : List Packet}

theorem handledOn_append (c : ConnId) (calls calls' : List Call) :
    handledOn c (calls ++ calls') = handledOn c calls ++ handledOn c calls' :=
  List.filterMap_append ..

theorem handledOn_sends (c : ConnId) (sends : List (ConnId × Bytes)) :
    handledOn c (sends.map fun p => .send p.1 p.2) = [] := by
  induction sends with
  | nil => rfl
  | cons p sends ih => exact ih

/-- Being in sync is about the read side only. -/
theorem InSync.of_input {bytes : Bytes} (h : InSync s c bytes ps)
    (hinput : (s'.conn c).input = (s.conn c).input) : InSync s' c bytes ps := by
  cases h with
  | header hrs hreads => exact .header hrs ((congrArg Input.reads hinput).trans hreads)
  | body hr hrs hbody => exact .body hr hrs (hinput.trans hbody)

/-- Nothing is left to read for a connection in sync that is starved. -/
theorem InSync.eq_nil {bytes : Bytes} (h : InSync s c bytes ps)
    (hstarved : ∀ op ∈ (s.conn c).reads, bytes.length < op.size) : ps = [] := by
  cases h with
  | @header rs _ hreads =>
    have hlt := hstarved .header (hreads ▸ List.mem_singleton_self _)
    cases rs with
    | nil => rfl
    | cons r rs =>
      rw [stream_cons, List.length_append, length_headerOf] at hlt
      exact absurd hlt (Nat.not_lt.mpr (Nat.le_add_right _ _))
  | @body r rs _ _ hinput =>
    have hreads : (s.conn c).reads = [.body r.body.length] := congrArg Input.reads hinput
    have hlt := hstarved (.body r.body.length) (hreads ▸ List.mem_singleton_self _)
    rw [List.length_append] at hlt
    exact absurd hlt (Nat.not_lt.mpr (Nat.le_add_right _ _))

/-- A header arrives in sync: it is the next request's. -/
theorem InSync.readHeader {header : Bytes} (hs : InSync s c (header ++ rest) ps)
    (h : step .started s (.readHeader c header) = some s') :
    InSync s' c rest ps ∧ (Event.readHeader (δ := δ) c header).stopped ≠ some c := by
  obtain ⟨_, ⟨hmem, hlen⟩, _⟩ := step_readHeader.mp h
  have hinput := step_input h c
  dsimp only [inputAfter] at hinput
  rw [if_pos rfl] at hinput
  generalize hbytes : header ++ rest = bytes at hs
  -- A connection that waits for a body completes no header.
  cases hs with
  | @header rs hrs hreads =>
    cases rs with
    | nil =>
      have hnil := List.append_eq_nil_iff.mp hbytes
      rw [hnil.1] at hlen
      cases hlen
    | cons r rs =>
      rw [stream_cons] at hbytes
      obtain ⟨rfl, rfl⟩ := List.append_inj hbytes (hlen.trans (length_headerOf r).symm)
      have hr := hrs r (List.mem_cons_self ..)
      have hrs' : ∀ r' ∈ rs, Readable r' := fun r' hr' => hrs r' (List.mem_cons_of_mem _ hr')
      refine ⟨.body hr hrs' ?_, stopped_headerOf hr c⟩
      rw [hinput, announced_headerOf hr, Connection.input, hreads]
      rfl
  | @body r rs _ _ hbody =>
    have hreads : (s.conn c).reads = [.body r.body.length] := congrArg Input.reads hbody
    rw [hreads] at hmem
    cases List.mem_singleton.mp hmem

/-- A body arrives in sync: it is handed over as the request's packet. -/
theorem InSync.readBody {body : Bytes} {w : World δ} (hs : InSync s c (body ++ rest) ps)
    (h : step .started s (.readBody c body w) = some s') :
    ∃ ps', InSync s' c rest ps'
      ∧ handledOn c (loopCalls s (.readBody c body w)) ++ ps' = ps := by
  obtain ⟨_, hmem, _⟩ := step_readBody.mp h
  have hinput := step_input h c
  dsimp only [inputAfter] at hinput
  rw [if_pos rfl] at hinput
  generalize hbytes : body ++ rest = bytes at hs
  cases hs with
  | header _ hreads =>
    rw [hreads] at hmem
    cases List.mem_singleton.mp hmem
  | @body r rs hr hrs hbody =>
    have hreads : (s.conn c).reads = [.body r.body.length] := congrArg Input.reads hbody
    have hheader : (s.conn c).headerBuffer = headerOf r := congrArg Input.headerBuffer hbody
    rw [hreads] at hmem
    injection List.mem_singleton.mp hmem with hlen
    obtain ⟨rfl, rfl⟩ := List.append_inj hbytes hlen
    refine ⟨rs.map packetOf, .header hrs ?_, ?_⟩
    · have hafter := congrArg Input.reads hinput
      dsimp only [Connection.input] at hafter
      rw [hafter, hreads, List.erase_cons_head, List.nil_append]
    · simp [loopCalls, packet_bodyRead hheader, handledOn]

/-- What happens to everything but `c` leaves `c` in sync. -/
theorem InSync.quiet {bytes : Bytes} (hs : InSync s c bytes ps) (hc : c ∈ s.accepted)
    (h : step .started s e = some s') (hquiet : ¬ e.Disturbs c)
    (hheader : ∀ header, e ≠ .readHeader c header) (hbody : ∀ body w, e ≠ .readBody c body w) :
    InSync s' c bytes ps ∧ e.bytesRead c = [] ∧ e.stopped ≠ some c
      ∧ handledOn c (loopCalls s e) = [] := by
  have hinput : (s'.conn c).input = (s.conn c).input → InSync s' c bytes ps := hs.of_input
  rw [step_input h c] at hinput
  cases e with
  | accept d =>
    -- An id is not given out twice.
    have hne : d ≠ c := fun heq => (step_accept.mp h).2.1 (heq ▸ hc)
    refine ⟨hinput (if_neg hne), rfl, (fun hd => nomatch hd), rfl⟩
  | readHeader d header =>
    have hne : d ≠ c := fun heq => hheader header (heq ▸ rfl)
    have hstopped : (Event.readHeader (δ := δ) d header).stopped ≠ some c :=
      fun hd => hne (eq_of_stopped_readHeader hd)
    refine ⟨hinput (if_neg hne), if_neg hne, hstopped, ?_⟩
    dsimp only [loopCalls]
    split <;> rfl
  | readBody d body w =>
    have hne : d ≠ c := fun heq => hbody body w (heq ▸ rfl)
    refine ⟨hinput (if_neg hne), if_neg hne, (fun hd => nomatch hd), ?_⟩
    dsimp only [loopCalls]
    split
    · simp [handledOn, hne]
    · rfl
  | readError d op =>
    have hne : d ≠ c := fun heq => hquiet (Or.inl ⟨op, heq ▸ rfl⟩)
    exact ⟨hinput (if_neg hne), rfl, fun hd => hne (Option.some_inj.mp hd), rfl⟩
  | writeError d =>
    have hne : d ≠ c := fun heq => hquiet (Or.inr (Or.inl (heq ▸ rfl)))
    exact ⟨hinput rfl, rfl, fun hd => hne (Option.some_inj.mp hd), rfl⟩
  | shutdown => exact absurd (Or.inr (Or.inr rfl)) hquiet
  | acceptError => exact ⟨hinput rfl, rfl, (fun hd => nomatch hd), rfl⟩
  | runPosted => exact ⟨hinput rfl, rfl, (fun hd => nomatch hd), rfl⟩
  | writeOk d => exact ⟨hinput rfl, rfl, (fun hd => nomatch hd), rfl⟩

/-- One step of a connection in sync: what it hands over comes off the front of
what is expected of it, and it is not stopped. -/
theorem InSync.of_step (hs : InSync s c (e.bytesRead c ++ rest) ps) (hc : c ∈ s.accepted)
    (h : step .started s e = some s') (hquiet : ¬ e.Disturbs c) :
    ∃ ps', InSync s' c rest ps' ∧ handledOn c (loopCalls s e) ++ ps' = ps
      ∧ e.stopped ≠ some c := by
  by_cases hheader : ∃ header, e = .readHeader c header
  · obtain ⟨header, rfl⟩ := hheader
    rw [Event.bytesRead, if_pos rfl] at hs
    obtain ⟨hs', hstopped⟩ := hs.readHeader h
    refine ⟨ps, hs', ?_, hstopped⟩
    dsimp only [loopCalls]
    split <;> rfl
  by_cases hbody : ∃ body w, e = .readBody c body w
  · obtain ⟨body, w, rfl⟩ := hbody
    rw [Event.bytesRead, if_pos rfl] at hs
    obtain ⟨ps', hs', hps⟩ := hs.readBody h
    exact ⟨ps', hs', hps, fun hd => nomatch hd⟩
  obtain ⟨hs', hbytes, hstopped, hhandled⟩ := hs.quiet hc h hquiet
    (fun header heq => hheader ⟨header, heq⟩) fun body w heq => hbody ⟨body, w, heq⟩
  rw [hbytes] at hs'
  exact ⟨ps, hs', by rw [hhandled]; rfl, hstopped⟩

/-- The run lemma: in sync, registered and never stopped up to the end. -/
theorem InSync.of_exec {evs : List (Event δ)} {t : ChatServer δ}
    (hs : InSync s c (evs.flatMap (Event.bytesRead c) ++ rest) ps) (hc : c ∈ s.accepted)
    (hlive : c ∈ s.connections) (h : exec (step .started) s evs = some t)
    (hquiet : ∀ e ∈ evs, ¬ e.Disturbs c) :
    ∃ ps' calls, InSync t c rest ps' ∧ t.calls = s.calls ++ calls
      ∧ handledOn c calls ++ ps' = ps ∧ .stop c ∉ calls ∧ c ∈ t.connections := by
  induction evs generalizing s ps with
  | nil =>
    cases h
    exact ⟨ps, [], hs, (List.append_nil _).symm, rfl, List.not_mem_nil, hlive⟩
  | cons e evs ih =>
    obtain ⟨m, he, ht⟩ := exec_cons.mp h
    have hquiet' := hquiet e (List.mem_cons_self ..)
    rw [List.flatMap_cons, List.append_assoc] at hs
    obtain ⟨ps₁, hm, hps₁, hstopped⟩ := hs.of_step hc he hquiet'
    have hlive' := mem_connections_of_mem he hlive hstopped
      fun heq => hquiet' (Or.inr (Or.inr heq))
    obtain ⟨ps', calls, hend, hcalls, hps', hstop, hconnected⟩ := ih hm
      (accepted_subset he hc) hlive' ht fun e' hmem => hquiet e' (List.mem_cons_of_mem _ hmem)
    -- The sends of the step are no packets, and no stops.
    obtain ⟨sends, hstep⟩ := step_calls he
    refine ⟨ps', loopCalls s e ++ sends.map (fun p => .send p.1 p.2) ++ calls, hend, ?_, ?_, ?_,
      hconnected⟩
    · rw [hcalls, hstep, List.append_assoc]
    · rw [handledOn_append, handledOn_append, handledOn_sends, List.append_nil,
        List.append_assoc, hps', hps₁]
    · intro hmem
      rcases List.mem_append.mp hmem with hmem | hmem
      · rcases List.mem_append.mp hmem with hmem | hmem
        · exact hstopped (mem_loopCalls_stop.mp hmem)
        · obtain ⟨p, _, heq⟩ := List.mem_map.mp hmem
          cases heq
      · exact hstop hmem

end

/-! ## A run that reads it all -/

/-- A world in which nothing outside the process works. -/
def offline : World δ where
  db := {
    verifyUser := fun _ _ _ => none
    getUserById := fun _ _ => none
    addFriend := fun _ _ _ => none
    getFriends := fun _ _ => none
    sendMessage := fun _ _ _ _ => none
    registerUser := fun _ _ _ _ _ => none
    usernameExists := fun _ _ => false
    getSecurityQuestion := fun _ _ => none
    resetPassword := fun _ _ _ => none }
  redis := fun _ => false
  now := 0
  sha256 := id

section

variable {s : ChatServer δ} {c : ConnId}

/-- A ready connection reads one request, and is ready again. -/
theorem Ready.request (hs : Ready s c) {r : Request} (hr : Readable r) (w : World δ) :
    ∃ t, exec (step .started) s (received c w r) = some t ∧ Ready t c := by
  have hinput : (s.conn c).input = ⟨(s.conn c).headerBuffer, [.header]⟩ := by
    rw [← hs.reads]
    rfl
  -- The header is read, and a body asked for.
  obtain ⟨m, hm⟩ : ∃ m, step .started s (.readHeader c (headerOf r)) = some m :=
    ⟨_, step_readHeader.mpr ⟨hs.running, ⟨hs.reads ▸ List.mem_singleton_self _,
      length_headerOf r⟩, _, readUint32_headerOf hr.2, rfl⟩⟩
  have hminput : (m.conn c).input = ⟨headerOf r, [.body r.body.length]⟩ := by
    rw [step_input hm c, hinput]
    dsimp only [inputAfter]
    rw [if_pos rfl, announced_headerOf hr]
    rfl
  have hmreads : (m.conn c).reads = [.body r.body.length] := congrArg Input.reads hminput
  have hmconnected := mem_connections_of_mem hm hs.connected (stopped_headerOf hr c)
    fun heq => nomatch heq
  -- The body is read, and decoded inside the packet.
  have hpacket : ((m.bodyRead c r.body).conn c).packet = some (packetOf r) :=
    packet_bodyRead (congrArg Input.headerBuffer hminput)
  obtain ⟨decoded, hdecoded⟩ :=
    Option.isSome_iff_exists.mp (decodeRequest_body_isSome hr.2 VERSION)
  obtain ⟨t, ht⟩ : ∃ t, step .started m (.readBody c r.body w) = some t :=
    ⟨_, step_readBody.mpr ⟨running_of_step hm (fun heq => nomatch heq),
      hmreads ▸ List.mem_singleton_self _, packetOf r, decoded, hpacket, hdecoded, rfl⟩⟩
  have htinput := step_input ht c
  rw [hminput] at htinput
  dsimp only [inputAfter] at htinput
  rw [if_pos rfl, List.erase_cons_head, List.nil_append] at htinput
  refine ⟨t, exec_cons.mpr ⟨m, hm, exec_cons.mpr ⟨t, ht, rfl⟩⟩, ?_, ?_, ?_, ?_⟩
  · exact running_of_step ht fun heq => nomatch heq
  · exact accepted_subset ht (accepted_subset hm hs.accepted)
  · exact mem_connections_of_mem ht hmconnected (fun hd => nomatch hd) fun heq => nomatch heq
  · exact congrArg Input.reads htinput

/-- The two reads of a request consume its frame. -/
theorem bytesRead_received (c : ConnId) (w : World δ) (r : Request) :
    (received c w r).flatMap (Event.bytesRead c) = Client.encodeRequest r := by
  rw [← headerOf_append_body]
  simp [received, Event.bytesRead, headerOf]

theorem received_undisturbed {w : World δ} {r : Request} :
    ∀ e ∈ received c w r, ¬ e.Disturbs c := by
  intro e he hd
  rcases List.mem_cons.mp he with rfl | he
  · rcases hd with ⟨_, heq⟩ | heq | heq <;> cases heq
  · rw [List.mem_singleton.mp he] at hd
    rcases hd with ⟨_, heq⟩ | heq | heq <;> cases heq

/-- **A stream of readable requests can be read to its end.** -/
theorem Ready.exists_feeds {rs : List Request} (hs : Ready s c) (hrs : ∀ r ∈ rs, Readable r) :
    ∃ evs t, Feeds s c rs evs t [] ∧ Ready t c := by
  induction rs generalizing s with
  | nil =>
    refine ⟨[], s, ⟨rfl, fun _ he => absurd he List.not_mem_nil, rfl, ?_⟩, hs⟩
    intro op hop
    rw [hs.reads] at hop
    rw [List.mem_singleton.mp hop]
    decide
  | cons r rs ih =>
    obtain ⟨m, hm, hready⟩ := hs.request (hrs r (List.mem_cons_self ..)) offline
    obtain ⟨evs, t, hfeeds, ht⟩ := ih hready fun r' hr' => hrs r' (List.mem_cons_of_mem _ hr')
    refine ⟨received c offline r ++ evs, t, ⟨?_, ?_, ?_, hfeeds.starved⟩, ht⟩
    · exact exec_append.mpr ⟨m, hm, hfeeds.exec⟩
    · intro e he
      rcases List.mem_append.mp he with he | he
      · exact received_undisturbed e he
      · exact hfeeds.undisturbed e he
    · rw [List.flatMap_append, bytesRead_received, List.append_assoc, hfeeds.bytes]
      exact (List.flatMap_cons ..).symm

/-! ## No packet is empty -/

/-- The bodies waited for are not empty. -/
def BodiesPositive (s : ChatServer δ) (c : ConnId) : Prop :=
  ∀ n, .body n ∈ (s.conn c).reads → 0 < n

theorem announced_pos {header : Bytes} {n : Nat} (h : .body n ∈ announced header) : 0 < n := by
  unfold announced at h
  split at h
  · split at h
    next hacceptable =>
      injection List.mem_singleton.mp h with hn
      rw [hn]
      exact UInt32.lt_iff_toNat_lt.mp hacceptable.1
    next => cases h
  · cases h

theorem step_bodiesPositive {s' : ChatServer δ} {e : Event δ} (hs : BodiesPositive s c)
    (h : step .started s e = some s') : BodiesPositive s' c := by
  intro n hn
  have hreads : (s'.conn c).reads = (inputAfter .started c e (s.conn c).input).reads :=
    congrArg Input.reads (step_input h c)
  rw [hreads] at hn
  cases e with
  | accept d =>
    dsimp only [inputAfter] at hn
    split at hn
    · cases List.mem_singleton.mp hn
    · exact hs n hn
  | readHeader d header =>
    dsimp only [inputAfter] at hn
    split at hn
    · rcases List.mem_append.mp hn with hold | hnew
      · exact hs n (List.mem_of_mem_erase hold)
      · exact announced_pos hnew
    · exact hs n hn
  | readBody d body w =>
    dsimp only [inputAfter] at hn
    split at hn
    · rcases List.mem_append.mp hn with hold | hnew
      · exact hs n (List.mem_of_mem_erase hold)
      · cases List.mem_singleton.mp hnew
    · exact hs n hn
  | readError d op =>
    dsimp only [inputAfter] at hn
    split at hn
    · exact hs n (List.mem_of_mem_erase hn)
    · exact hs n hn
  | acceptError => exact hs n hn
  | runPosted => exact hs n hn
  | writeOk d => exact hs n hn
  | writeError d => exact hs n hn
  | shutdown => exact hs n hn

theorem data_of_packet {conn : Connection} {packet : Packet} (h : conn.packet = some packet) :
    packet.data = conn.bodyBuffer := by
  obtain ⟨_, _, h⟩ := Option.bind_eq_some_iff.mp h
  obtain ⟨_, _, h⟩ := Option.bind_eq_some_iff.mp h
  cases h
  rfl

/-- A packet handed over has a body. -/
theorem handledOn_loopCalls_ne_nil {s' : ChatServer δ} {e : Event δ} (hs : BodiesPositive s c)
    (h : step .started s e = some s') {packet : Packet}
    (hpacket : packet ∈ handledOn c (loopCalls s e)) : packet.data ≠ [] := by
  obtain ⟨call, hcall, hmatch⟩ := List.mem_filterMap.mp hpacket
  cases call with
  | handleMessage d p =>
    dsimp only at hmatch
    split at hmatch
    next heq =>
      cases hmatch
      subst heq
      obtain ⟨body, w, rfl⟩ := mem_loopCalls_handleMessage hcall
      obtain ⟨_, hmem, p, _, hp, _⟩ := step_readBody.mp h
      dsimp only [loopCalls] at hcall
      rw [hp] at hcall
      cases List.mem_singleton.mp hcall
      rw [data_of_packet hp, bodyRead, modify_conn_self]
      exact List.length_pos_iff.mp (hs _ hmem)
    next => cases hmatch
  | stop d => cases hmatch
  | send d data => cases hmatch

theorem exec_handledOn_ne_nil {evs : List (Event δ)} {t : ChatServer δ}
    (hs : BodiesPositive s c) (h : exec (step .started) s evs = some t) :
    ∃ calls, t.calls = s.calls ++ calls ∧ ∀ packet ∈ handledOn c calls, packet.data ≠ [] := by
  induction evs generalizing s with
  | nil =>
    cases h
    exact ⟨[], (List.append_nil _).symm, fun _ hmem => absurd hmem List.not_mem_nil⟩
  | cons e evs ih =>
    obtain ⟨m, he, ht⟩ := exec_cons.mp h
    obtain ⟨calls, hcalls, hne⟩ := ih (step_bodiesPositive hs he) ht
    obtain ⟨sends, hstep⟩ := step_calls he
    refine ⟨loopCalls s e ++ sends.map (fun p => .send p.1 p.2) ++ calls, ?_, ?_⟩
    · rw [hcalls, hstep, List.append_assoc]
    · intro packet hmem
      rw [handledOn_append, handledOn_append, handledOn_sends, List.append_nil] at hmem
      rcases List.mem_append.mp hmem with hmem | hmem
      · exact handledOn_loopCalls_ne_nil hs he hmem
      · exact hne packet hmem

end

/-! ## The stream is delivered -/

/-- The stream of `rs` can be read, and however that goes, `c` calls
`handle_message` exactly once per request, in order, with its command and body,
and is not stopped. -/
def Delivers (s : ChatServer δ) (c : ConnId) (rs : List Request) : Prop :=
  (∃ evs t rest, Feeds s c rs evs t rest) ∧
    ∀ evs t rest, Feeds s c rs evs t rest →
      ∃ calls, t.calls = s.calls ++ calls ∧ handledOn c calls = rs.map packetOf
        ∧ .stop c ∉ calls ∧ c ∈ t.connections

/-- **A stream is delivered exactly if it holds no friend list request.** -/
theorem delivers_iff {s : ChatServer δ} {c : ConnId} {rs : List Request} (hs : Ready s c)
    (hlen : ∀ r ∈ rs, r.body.length < 2 ^ 20) : Delivers s c rs ↔ .friendList ∉ rs := by
  constructor
  · intro ⟨⟨evs, t, rest, hfeeds⟩, hall⟩ hmem
    -- The friend list request's packet would be empty, and no packet is.
    obtain ⟨calls, hcalls, hhandled, _⟩ := hall evs t rest hfeeds
    have hpositive : BodiesPositive s c := by
      intro n hn
      rw [hs.reads] at hn
      cases List.mem_singleton.mp hn
    obtain ⟨calls', hcalls', hne⟩ := exec_handledOn_ne_nil hpositive hfeeds.exec
    rw [List.append_cancel_left (hcalls.symm.trans hcalls')] at hhandled
    refine hne (packetOf .friendList) ?_ body_friendList
    rw [hhandled]
    exact List.mem_map_of_mem hmem
  · intro hmem
    have hrs : ∀ r ∈ rs, Readable r := fun r hr =>
      ⟨body_length_pos fun heq => hmem (heq ▸ hr), hlen r hr⟩
    refine ⟨?_, fun evs t rest hfeeds => ?_⟩
    · obtain ⟨evs, t, hfeeds, _⟩ := hs.exists_feeds hrs
      exact ⟨evs, t, [], hfeeds⟩
    · have hsync : InSync s c (evs.flatMap (Event.bytesRead c) ++ rest) (rs.map packetOf) := by
        rw [hfeeds.bytes]
        exact .header hrs hs.reads
      obtain ⟨ps', calls, hend, hcalls, hps, hstop, hconnected⟩ :=
        hsync.of_exec hs.accepted hs.connected hfeeds.exec hfeeds.undisturbed
      rw [hend.eq_nil hfeeds.starved, List.append_nil] at hps
      exact ⟨calls, hcalls, hps, hstop, hconnected⟩

theorem ready_accept : Ready ((ChatServer.init ()).doAccept .started 1) 1 :=
  ⟨rfl, by decide, by decide, rfl⟩

/-- A new connection, and two requests. -/
theorem delivers_iff_login : Delivers ((ChatServer.init ()).doAccept .started 1) 1
      [.login ⟨[97], []⟩, .message ⟨2, [104, 105]⟩]
    ↔ .friendList ∉ ([.login ⟨[97], []⟩, .message ⟨2, [104, 105]⟩] : List Request) :=
  delivers_iff ready_accept (by decide)

/-- A friend list request stops the connection that sends it. -/
theorem not_delivers_friendList :
    ¬ Delivers ((ChatServer.init ()).doAccept .started 1) 1 [.friendList] := by
  intro ⟨_, hall⟩
  have hrun : (exec (step .started) ((ChatServer.init ()).doAccept .started 1)
      [.readHeader 1 [1, 0, 6, 0, 0, 0, 0]]).map
        (fun t => ((t.conn 1).reads, decide (1 ∈ t.connections))) = some ([], false) := by decide
  obtain ⟨t, ht, hfinal⟩ := Option.map_eq_some_iff.mp hrun
  injection hfinal with hreads hlive
  have hfeeds : Feeds ((ChatServer.init ()).doAccept .started 1) 1 [.friendList]
      [.readHeader 1 [1, 0, 6, 0, 0, 0, 0]] t [] := by
    refine ⟨ht, fun e he hd => ?_, by decide, fun op hop => ?_⟩
    · rw [List.mem_singleton.mp he] at hd
      rcases hd with ⟨_, heq⟩ | heq | heq <;> cases heq
    · rw [hreads] at hop
      cases hop
  obtain ⟨_, _, _, _, hconnected⟩ := hall _ t [] hfeeds
  exact of_decide_eq_false hlive hconnected

end QQChat.Server
