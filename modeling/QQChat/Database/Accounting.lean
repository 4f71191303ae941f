import QQChat.Database.Authenticity
import QQChat.Server.Commands

/-!
# What becomes of the stored messages

The table `messages` against what the server does with its rows: over a run every
MESSAGE_REQ that is stored adds one row, and for every user the rows addressed to them
are the notifications passed to `send`, on a connection of theirs or on one that is not
theirs any more, the unread messages counted in Redis, and those that are none of these
(`messages_conserved`).

Nothing takes a message off the counter: no handler calls `clear_unread`, and no request
asks for the messages. What is counted stays counted.
-/

namespace QQChat.Database

open Server ChatServer Trace

section

variable {collation : Collation} {hash : Sha256} {mysql : MySQL} {w : World Tables}
  {wiring : Wiring} {s s' : ChatServer Tables} {e : Event Tables}

/-- The request that a row was made of. -/
def MessageRow.request (row : MessageRow) : MessageRequest where
  toId := row.toId
  content := row.content

/-- A request's row is the message it stores. -/
theorem messages_handleRequest (hw : w.db = databasePool collation hash mysql)
    (s : ChatServer Tables) (c : ConnId) (r : Request) :
    ∃ rows, (handleRequest w s c r).db.messages = s.db.messages ++ rows
      ∧ rows.map MessageRow.request = match r with
        | .message req => if Stores w s c req then [req] else []
        | _ => [] := by
  have hother : (∀ req, r ≠ .message req) →
      (handleRequest w s c r).db.messages = s.db.messages := fun hr =>
    (handleRequest_writes w s c r).messages_eq hw hr
  cases r with
  | message req =>
    dsimp only
    rw [handleRequest]
    rcases handleChatMessage_cases w s c req with
      ⟨hauth, db, msgId, hdb, heq⟩ | ⟨hrefused, _, _, _, heq⟩
    · have hstores : Stores w s c req := ⟨hauth, Option.isSome_iff_exists.mpr ⟨_, hdb⟩⟩
      rw [heq, if_pos hstores]
      rw [hw] at hdb
      refine ⟨[⟨mysql.msgId, (s.conn c).userId, req.toId, req.content⟩], ?_, rfl⟩
      show (deliver w { s with db } _ req).db.messages = _
      rw [db_deliver, sendMessage_eq_some hdb]
    · have hstores : ¬ Stores w s c req := by
        rintro ⟨hauth, hsome⟩
        rcases hrefused with hzero | hnone
        · exact hauth hzero
        · rw [hnone] at hsome
          cases hsome
      rw [heq, if_neg hstores]
      exact ⟨[], (List.append_nil _).symm, rfl⟩
  | _ =>
    refine ⟨[], ?_, rfl⟩
    rw [List.append_nil]
    exact hother fun _ heq => by cases heq

/-- A step's row is the message it stores. -/
theorem step_rows (hpool : UsesPool collation hash e) (h : step wiring s e = some s') :
    ∃ rows, s'.db.messages = s.db.messages ++ rows
      ∧ rows.map MessageRow.request = storedChat s e := by
  rcases e.readBody_or_ne with ⟨c, body, w, rfl⟩ | he
  · obtain ⟨mysql, hw⟩ := hpool c body w rfl
    obtain ⟨packet, huser, ⟨hr, hdb, _⟩ | ⟨r, hr, hdb, _⟩⟩ := step_dispatched h
    · refine ⟨[], by rw [hdb, List.append_nil], ?_⟩
      rw [storedChat, hr]
      rfl
    · obtain ⟨rows, hrows, hmap⟩ :=
        messages_handleRequest hw ((s.bodyRead c body).called c packet) c r
      refine ⟨rows, hdb ▸ hrows, ?_⟩
      rw [hmap, storedChat, hr]
      cases r with
      | message req =>
        refine if_congr ?_ rfl rfl
        unfold Stores
        rw [huser]
        rfl
      | _ => rfl
  · refine ⟨[], by rw [(step_undispatched h he).1, List.append_nil], ?_⟩
    cases e with
    | readBody c body w => exact absurd rfl (he c body w)
    | _ => rfl

/-- A message that is passed on has its row. -/
theorem row_of_relay (hpool : UsesPool collation hash e) (h : step wiring s e = some s')
    {r : Relay} (hr : r ∈ relays s e) :
    ∃ row ∈ s'.db.messages, row.fromId = r.fromId ∧ row.request = r.req := by
  cases e with
  | readBody c body w =>
    dsimp only [relays] at hr
    cases hreq : requestOf s c body with
    | none =>
      rw [hreq] at hr
      cases hr
    | some request =>
      rw [hreq] at hr
      cases request with
      | message req =>
        dsimp only at hr
        split at hr
        next hstores =>
          obtain ⟨_, hfrom, hmessage, _⟩ := mem_relay hr
          obtain ⟨rows, hrows, hmap⟩ := step_rows hpool h
          have hstored : storedChat s (.readBody c body w) = [req] := by
            rw [storedChat, hreq]
            exact if_pos hstores
          rw [hstored] at hmap
          obtain ⟨row, hrow⟩ := List.map_eq_singleton_iff.mp hmap
          -- Its sender is the user of the connection.
          obtain ⟨mysql, hw⟩ := hpool c body w rfl
          obtain ⟨_, hwrites⟩ := step_writes h
          obtain ⟨rows', hrows', hside⟩ := hwrites.messages_append hw
          rw [hrows] at hrows'
          cases List.append_cancel_left hrows'
          have hmem : row ∈ rows := by
            rw [hrow.1]
            exact List.mem_singleton_self row
          refine ⟨row, ?_, ?_, ?_⟩
          · rw [hrows]
            exact List.mem_append_right _ hmem
          · rw [(hside row hmem).2, hfrom]
          · rw [hrow.2, hmessage]
        next => cases hr
      | _ => cases hr
  | _ => cases hr

end

end QQChat.Database
