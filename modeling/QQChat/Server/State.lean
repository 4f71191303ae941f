import Mathlib.Data.Finset.Basic
import QQChat.Wire.Protocol

/-!
# The server's state

`ChatServer`, its `ConnectionManager` and the `Connection`s
(`chat_server.cpp`, `connection_manager.cpp`), with the database and the cache
behind them (`database_pool.hpp`, `cache_manager.cpp`). One `io_context` thread
runs every callback, so the state is one record and a callback is one function
on it; the mutexes have no counterpart.

Mirroring notes:
- A `shared_ptr<Connection>` held by a pending callback keeps the object alive
  after the manager has forgotten it. `conn` is therefore total, and
  `connections` (the keys of `connections_`) says which ones the manager knows.
- A connection id is a random 64-bit number in hexadecimal, only ever compared;
  distinctness is a guard of `accept` (see `Server.Step`).
- `reads` and `writes` are the asynchronous operations in flight, which the
  source keeps inside the socket. `posted` is the executor's queue of `send`
  lambdas.
- The tables behind `DatabasePool` are of an arbitrary type `δ`, and what a call
  answers is part of the environment (`World`): any outcome at any time. A call
  that fails leaves the tables as they were. `User` and `Friend` have the fields
  the handlers read.
- `safe_command` hands its `va_list` on to the variadic `redisCommand`, so what it
  sends need not be what it formats. Whether a command is sent as it is formatted
  and executed is again the environment's choice (`World.redis`); one that is not
  leaves the entries alone, and every caller ignores the answer.
- `calls` records the calls of `handle_message`, `stop` and `send`; no code
  reads it.
-/

namespace QQChat.Server

abbrev ConnId := Nat

/-! ## Connections -/

/-- A pending `async_read`, by the buffer it fills. -/
inductive ReadOp where
  | header
  | body (length : Nat)
  deriving DecidableEq, Repr

/-- How many bytes complete it. -/
def ReadOp.size : ReadOp → Nat
  | .header => HEADER_SIZE
  | .body length => length

structure Connection where
  userId : Int32 := 0
  headerBuffer : Bytes := List.replicate HEADER_SIZE 0
  bodyBuffer : Bytes := []
  writeBuffer : List Bytes := []
  reads : List ReadOp := []
  writes : List Bytes := []
  deriving DecidableEq, Repr

/-- `std::vector::resize`. -/
def resize (v : Bytes) (n : Nat) : Bytes :=
  v.take n ++ List.replicate (n - v.length) 0

/-! ## The environment -/

/-- The entries `user:<id>:online`, `user:<id>:conn` and `user:<id>:unread`. -/
structure Cache where
  online : Int32 → Option Bool := fun _ => none
  connId : Int32 → Option ConnId := fun _ => none
  unread : Int32 → Int := fun _ => 0

/-- The commands the handlers cause: `SET`, `SET` and `INCR`. -/
inductive CacheCommand where
  | setOnline (userId : Int32) (online : Bool)
  | setConnectionId (userId : Int32) (connId : ConnId)
  | incrementUnread (userId : Int32)
  deriving DecidableEq, Repr

/-- What an executed command does. -/
def CacheCommand.execute (cache : Cache) : CacheCommand → Cache
  | .setOnline userId online =>
    { cache with online := Function.update cache.online userId (some online) }
  | .setConnectionId userId connId =>
    { cache with connId := Function.update cache.connId userId (some connId) }
  | .incrementUnread userId =>
    { cache with unread := Function.update cache.unread userId (cache.unread userId + 1) }

structure User where
  userId : Int32
  username : Bytes
  deriving DecidableEq, Repr

structure Friend where
  friendId : Int32
  friendName : Bytes
  deriving DecidableEq, Repr

/-- `DatabasePool`, by the outcomes of its calls: `none` is `return false`. -/
structure DatabasePool (δ : Type) where
  verifyUser : δ → (username password : Bytes) → Option User
  getUserById : δ → (userId : Int32) → Option User
  addFriend : δ → (userId friendId : Int32) → Option δ
  getFriends : δ → (userId : Int32) → Option (List Friend)
  sendMessage : δ → (fromId toId : Int32) → (content : Bytes) → Option (δ × Int32)
  registerUser : δ → (username passwordHash securityQuestion securityAnswerHash : Bytes) →
    Option (δ × Int32)
  usernameExists : δ → (username : Bytes) → Bool
  getSecurityQuestion : δ → (username : Bytes) → Option (Bytes × Bytes)
  resetPassword : δ → (username newPasswordHash : Bytes) → Option δ

/-- What one callback finds outside the process: the database, whether a command
reaches Redis as it is formatted and is executed, the clock in milliseconds, and
the hash. -/
structure World (δ : Type) where
  db : DatabasePool δ
  redis : CacheCommand → Bool
  now : Int64
  sha256 : Bytes → Bytes

/-! ## The server -/

inductive Call where
  | handleMessage (conn : ConnId) (packet : Packet)
  | stop (conn : ConnId)
  | send (conn : ConnId) (data : Bytes)
  deriving DecidableEq, Repr

structure ChatServer (δ : Type) where
  /-- `io_context_` has not been stopped. -/
  running : Bool := true
  /-- The ids of all connections ever made. -/
  accepted : Finset ConnId := ∅
  conn : ConnId → Connection := fun _ => {}
  connections : Finset ConnId := ∅
  userToConn : Int32 → Option ConnId := fun _ => none
  posted : List (ConnId × Bytes) := []
  cache : Cache := {}
  db : δ
  calls : List Call := []

namespace ChatServer

variable {δ : Type}

/-- Change one connection's members. -/
def modify (s : ChatServer δ) (c : ConnId) (f : Connection → Connection) : ChatServer δ :=
  { s with conn := Function.update s.conn c (f (s.conn c)) }

@[simp] theorem modify_conn_self (s : ChatServer δ) (c : ConnId) (f : Connection → Connection) :
    (s.modify c f).conn c = f (s.conn c) :=
  Function.update_self ..

@[simp] theorem modify_conn_of_ne (s : ChatServer δ) {c d : ConnId} (h : d ≠ c)
    (f : Connection → Connection) : (s.modify c f).conn d = s.conn d :=
  Function.update_of_ne h ..

/-! ## `ConnectionManager` -/

def start (s : ChatServer δ) (c : ConnId) : ChatServer δ :=
  { s with connections := insert c s.connections }

/-- The user's entry is erased whichever connection it names. -/
def stop (s : ChatServer δ) (c : ConnId) : ChatServer δ :=
  { s with
    userToConn :=
      if (s.conn c).userId ≠ 0 then Function.update s.userToConn (s.conn c).userId none
      else s.userToConn
    connections := s.connections.erase c
    calls := s.calls ++ [.stop c] }

def stopAll (s : ChatServer δ) : ChatServer δ :=
  { s with connections := ∅, userToConn := fun _ => none }

def isUserOnline (s : ChatServer δ) (userId : Int32) : Bool :=
  (s.userToConn userId).isSome

def setUserConnection (s : ChatServer δ) (userId : Int32) (c : ConnId) : ChatServer δ :=
  { s with userToConn := Function.update s.userToConn userId (some c) }

/-! ## `Connection` -/

/-- `Connection::send`: the buffer is queued when the posted lambda runs. -/
def send (s : ChatServer δ) (c : ConnId) (data : Bytes) : ChatServer δ :=
  { s with posted := s.posted ++ [(c, data)], calls := s.calls ++ [.send c data] }

def setUserId (s : ChatServer δ) (c : ConnId) (userId : Int32) : ChatServer δ :=
  s.modify c fun conn => { conn with userId }

def doReadHeader (s : ChatServer δ) (c : ConnId) : ChatServer δ :=
  s.modify c fun conn => { conn with reads := conn.reads ++ [.header] }

def doReadBody (s : ChatServer δ) (c : ConnId) (length : Nat) : ChatServer δ :=
  s.modify c fun conn => { conn with reads := conn.reads ++ [.body length] }

def doWrite (s : ChatServer δ) (c : ConnId) (data : Bytes) : ChatServer δ :=
  s.modify c fun conn => { conn with writes := conn.writes ++ [data] }

/-- `ConnectionManager::send_to_user`. -/
def sendToUser (s : ChatServer δ) (userId : Int32) (data : Bytes) : Bool × ChatServer δ :=
  match s.userToConn userId with
  | none => (false, s)
  | some c => if c ∈ s.connections then (true, s.send c data) else (false, s)

/-! ## `CacheManager` -/

def safeCommand (w : World δ) (s : ChatServer δ) (command : CacheCommand) : ChatServer δ :=
  if w.redis command then { s with cache := command.execute s.cache } else s

end ChatServer

end QQChat.Server
