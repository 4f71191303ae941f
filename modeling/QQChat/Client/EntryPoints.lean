import QQChat.Client.Threads

/-!
# The JNI entry points, called one after another

`native-lib.cpp` has thirteen functions that the Java service calls, each of which
takes `g_mutex` for the whole of its body. Nine of them are `NativeCall`s, which call a
member of the client if there is one; the others are `nativeInit`, `nativeDestroy`,
`nativeIsConnected` and `nativeAddFriend`.

Mirroring notes:
- One thread calls them, in any order and number, and the worker is idle: it holds no
  mutex, and `join` returns.
- `g_client` is a `unique_ptr`: assigning to it and resetting it run the destructor of
  the client that it held, which disconnects.
- `attach_callbacks` and `detach_callbacks` take `g_mutex` themselves. Their callers
  hold it, and `std::mutex` is not recursive.
-/

namespace QQChat.Client

open Locks

inductive EntryPoint where
  | nativeInit
  | nativeDestroy
  | nativeIsConnected
  | nativeAddFriend
  | call (native : NativeCall)
  deriving DecidableEq, Repr

/-- `g_client` and `g_service_obj`, by whether they are set. -/
structure Globals where
  client : Bool := false
  serviceObj : Bool := false
  deriving DecidableEq, Repr

inductive EntryAct where
  | member (act : Act)
  | setStatusCallback
  | newClient
  | resetClient
  | attach
  | detach
  deriving DecidableEq, Repr

/-- What an act does to the globals. -/
def EntryAct.effect (g : Globals) : EntryAct → Globals
  | .member _ => g
  | .setStatusCallback => g
  | .newClient => { g with client := true }
  | .resetClient => { g with client := false }
  | .attach => { g with serviceObj := true }
  | .detach => { g with serviceObj := false }

abbrev EntryCode := List (Instr Mutex EntryAct)

/-! ## The functions -/

/-- Code of the client's, called from an entry point. -/
def memberCode (code : Code) : EntryCode :=
  code.map (Instr.map .member)

def attachCallbacks : EntryCode :=
  [.lock .g, .act .attach, .unlock .g]

def detachCallbacks : EntryCode :=
  [.lock .g, .act .detach, .unlock .g]

def setStatusCallback : EntryCode :=
  [.lock .callback, .act .setStatusCallback, .unlock .callback]

/-- `~ChatClient`, if there is a client. -/
def destructor (g : Globals) : EntryCode :=
  if g.client then memberCode disconnect else []

def EntryPoint.code (g : Globals) : EntryPoint → EntryCode
  | .nativeInit =>
    .lock .g :: .act .newClient :: destructor g ++ setStatusCallback
      ++ memberCode (request .messageCallback) ++ attachCallbacks ++ [.unlock .g]
  | .nativeDestroy =>
    .lock .g :: detachCallbacks ++ [.act .resetClient] ++ destructor g ++ [.unlock .g]
  | .nativeIsConnected => memberCode (jni [])
  | .nativeAddFriend => memberCode (jni [])
  | .call native => memberCode (if g.client then native.code else jni [])

/-! ## Sequences of calls -/

/-- What the calling thread holds between two calls, and the globals. -/
structure EntryState where
  held : Mutex → Bool := fun _ => false
  globals : Globals := {}

/-- One call: `.error m` if the thread takes `m` while it holds it. -/
def enter (s : EntryState) (e : EntryPoint) : Except Mutex EntryState :=
  (run EntryAct.effect s.held s.globals (e.code s.globals)).map fun (held, globals) =>
    { held, globals }

/-- Every call of the sequence returns, without having taken a mutex that the thread
held, and `g_mutex` is free when it has. -/
def NeverRelocks : EntryState → List EntryPoint → Prop
  | _, [] => True
  | s, e :: calls => ∃ s', enter s e = .ok s' ∧ s'.held .g = false ∧ NeverRelocks s' calls

/-- The two entry points that call a helper which takes `g_mutex` again. -/
def EntryPoint.relocks : EntryPoint → Bool
  | .nativeInit => true
  | .nativeDestroy => true
  | _ => false

theorem enter_relocks (g : Globals) {e : EntryPoint} (h : e.relocks = true) :
    enter { globals := g } e = .error .g := by
  obtain ⟨client, serviceObj⟩ := g
  cases e with
  | nativeInit => cases client <;> rfl
  | nativeDestroy => cases client <;> rfl
  | _ => cases h

/-- The code of every other entry point is balanced. -/
theorem balanced_code (g : Globals) {e : EntryPoint} (h : e.relocks = false) :
    Balanced (e.code g) = true ∧ ∀ m, Holds m (e.code g) = false := by
  have hlift : ∀ code, Balanced code = true → (∀ m, Holds m code = false) →
      Balanced (memberCode code) = true ∧ ∀ m, Holds m (memberCode code) = false :=
    fun code hbalanced hholds =>
      ⟨(balanced_map _ code).trans hbalanced, fun m => (holds_map _ m code).trans (hholds m)⟩
  have hempty := hlift (jni []) rfl fun m => by cases m <;> rfl
  cases e with
  | nativeInit => cases h
  | nativeDestroy => cases h
  | nativeIsConnected => exact hempty
  | nativeAddFriend => exact hempty
  | call native =>
    rw [EntryPoint.code]
    split
    · refine hlift native.code (UiCode.of_call native).balanced fun m => ?_
      cases native <;> cases m <;> rfl
    · exact hempty

theorem enter_of_not_relocks (g : Globals) {e : EntryPoint} (h : e.relocks = false) :
    ∃ g', enter { globals := g } e = .ok { globals := g' } := by
  obtain ⟨hbalanced, hholds⟩ := balanced_code g h
  obtain ⟨g', hrun⟩ := run_balanced EntryAct.effect hbalanced hholds g
  refine ⟨g', ?_⟩
  unfold enter
  rw [hrun]
  rfl

/-- **When the entry points never relock**: from any state of the globals with no mutex
held, a sequence of calls goes through, with `g_mutex` free after each, if and only if
`nativeInit` and `nativeDestroy` are not among them. -/
theorem neverRelocks_iff (g : Globals) (calls : List EntryPoint) :
    NeverRelocks { globals := g } calls
      ↔ ∀ e ∈ calls, e ≠ .nativeInit ∧ e ≠ .nativeDestroy := by
  have hrelocks : ∀ e : EntryPoint, (e ≠ .nativeInit ∧ e ≠ .nativeDestroy) ↔ e.relocks = false := by
    intro e
    cases e with
    | nativeInit => exact iff_of_false (fun h => h.1 rfl) Bool.noConfusion
    | nativeDestroy => exact iff_of_false (fun h => h.2 rfl) Bool.noConfusion
    | _ => exact iff_of_true ⟨nofun, nofun⟩ rfl
  simp only [hrelocks]
  induction calls generalizing g with
  | nil => exact iff_of_true trivial fun _ h => absurd h List.not_mem_nil
  | cons e calls ih =>
    rw [List.forall_mem_cons, NeverRelocks]
    cases he : e.relocks with
    | true =>
      refine iff_of_false ?_ fun h => Bool.noConfusion h.1
      rintro ⟨s', hs', _⟩
      rw [enter_relocks g he] at hs'
      cases hs'
    | false =>
      obtain ⟨g', henter⟩ := enter_of_not_relocks g he
      rw [henter, and_iff_right rfl]
      refine Iff.trans ?_ (ih g')
      constructor
      · rintro ⟨s', hs', _, hcalls⟩
        cases hs'
        exact hcalls
      · exact fun hcalls => ⟨_, rfl, rfl, hcalls⟩

/-- The first call of the service, in the process that it is made in: the thread takes
`g_mutex` while it holds it. -/
theorem nativeInit_relocks :
    enter {} .nativeInit = .error .g
    ∧ ¬ ∀ calls, NeverRelocks {} calls := by
  refine ⟨rfl, fun h => ?_⟩
  obtain ⟨_, henter, _⟩ := h [.nativeInit]
  cases henter

end QQChat.Client
