import DistributedOs.Semantics.Execution
import Mathlib.Data.List.AList

/-! The registry of the reverse tunnels. A phone is known by its address; a connection is named by
the number of connections that were accepted before it. -/

namespace DistributedOs.Tunnel

open Semantics

variable {File : Type}

/-- A call of `send_through_tunnel` that has its entry. `matched` is whether it was found under the
phone's own address, `failed` whether the write failed and the removal is to come. -/
structure SendRequest (File : Type) where
  phoneIp : String
  file : File
  connection : Nat
  matched : Bool
  failed : Bool

structure TunnelServer (File : Type) where
  connections : List String
  tunnels : AList fun _ : String => Nat
  monitored : List Nat
  failing : List Nat
  requests : Nat → Option (SendRequest File)
  written : List (Nat × File)

/-- `available` is the entry that the map's iterator begins with. -/
inductive TunnelEvent (File : Type) where
  | connect (ip : String)
  | monitorFails (connection : Nat)
  | monitorRemoves (connection : Nat)
  | lookup (request : Nat) (phoneIp : String) (file : File) (available : Option String)
  | readFails (request : Nat)
  | write (request : Nat)
  | writeFails (request : Nat)
  | requestRemoves (request : Nat)

namespace TunnelServer

def new : TunnelServer File :=
  { connections := [], tunnels := ∅, monitored := [], failing := [], requests := fun _ =>
    none, written := [] }

def setRequest (server : TunnelServer File) (request : Nat) (value : Option (SendRequest File)) :
    TunnelServer File :=
  { server with requests := fun other => if other = request then value else server.requests other }

/-- The accept loop's turn: the entry of an older connection is replaced. -/
def connect (server : TunnelServer File) (ip : String) : TunnelServer File :=
  { server with
    connections := server.connections ++ [ip]
    tunnels := server.tunnels.insert ip server.connections.length
    monitored := server.connections.length :: server.monitored }

def monitorFails (server : TunnelServer File) (connection : Nat) : Option (TunnelServer File) :=
  if connection ∈ server.monitored then
    some { server with
      monitored := server.monitored.erase connection, failing := connection :: server.failing }
  else none

/-- `TUNNELS.write().await.remove(&ip_clone)`. -/
def monitorRemoves (server : TunnelServer File) (connection : Nat) : Option (TunnelServer File) :=
  if connection ∈ server.failing then
    server.connections[connection]?.map fun ip =>
      { server with failing := server.failing.erase connection, tunnels := server.tunnels.erase ip }
  else none

/-- The exact address first, then any available tunnel; without one the call returns `NoTunnel`. -/
def lookup (server : TunnelServer File) (request : Nat) (phoneIp : String) (file : File)
    (available : Option String) :
    Option (TunnelServer File) :=
  if (server.requests request).isSome then none
  else match server.tunnels.lookup phoneIp, available with
    | some connection, _ =>
      some (server.setRequest request
        (some { phoneIp, file, connection, matched := true, failed := false }))
    | none, some ip =>
      (server.tunnels.lookup ip).map fun connection =>
        server.setRequest request (some { phoneIp, file, connection, matched := false, failed := false })
    | none, none => if server.tunnels.entries = [] then some server else none

/-- A call that has its entry goes on. -/
def proceed (server : TunnelServer File) (request : Nat) (failed : Bool)
    (next : SendRequest File → TunnelServer File) :
    Option (TunnelServer File) :=
  match server.requests request with
  | some send => if send.failed = failed then some (next send) else none
  | none => none

/-- Writes hold the entry's lock. A write that fails may have sent a part of the frame. -/
def step (server : TunnelServer File) : TunnelEvent File → Option (TunnelServer File)
  | .connect ip => some (server.connect ip)
  | .monitorFails connection => server.monitorFails connection
  | .monitorRemoves connection => server.monitorRemoves connection
  | .lookup request phoneIp file available => server.lookup request phoneIp file available
  | .readFails request => server.proceed request false fun _ => server.setRequest request none
  | .write request =>
    server.proceed request false fun send =>
      { server.setRequest request none with written := server.written ++ [(send.connection, send.file)] }
  | .writeFails request =>
    server.proceed request false fun send =>
    server.setRequest request (some { send with failed := true })
  | .requestRemoves request =>
    server.proceed request true fun send =>
      { server.setRequest request none with tunnels := server.tunnels.erase send.phoneIp }

/-- The address and the connection of the failure that a removal answers. -/
def failure (server : TunnelServer File) : TunnelEvent File → Option (String × Nat)
  | .monitorRemoves connection => server.connections[connection]?.map fun ip => (ip, connection)
  | .requestRemoves request => (server.requests request).map fun send => (send.phoneIp, send.connection)
  | _ => none

def writing (server : TunnelServer File) : TunnelEvent File → Option (SendRequest File)
  | .write request | .writeFails request => server.requests request
  | _ => none

/-- An entry that an event takes out, other than by registering a newer connection in its place. -/
def Removes (server : TunnelServer File) (event : TunnelEvent File) (after : TunnelServer File)
    (ip : String) (entry : Nat) : Prop :=
  event ≠ .connect ip ∧ server.tunnels.lookup ip = some entry ∧ after.tunnels.lookup ip ≠ some entry

/-- A failure removes nothing but the failing connection's entry, and what is sent to a phone is
written to a connection of it. -/
structure Own (server : TunnelServer File) (event : TunnelEvent File)
    (after : TunnelServer File) : Prop where
  removed : ∀ ip entry, Removes server event after ip entry → server.failure event = some (ip, entry)
  written : ∀ send, server.writing event = some send →
    server.connections[send.connection]? = some send.phoneIp

/-- What a failure removes stands under its address, and is the failing connection or a newer one.
What is sent to a phone is written to a connection of it exactly when one was found. -/
structure Contained (server : TunnelServer File) (event : TunnelEvent File)
    (after : TunnelServer File) : Prop where
  removed : ∀ ip entry, Removes server event after ip entry →
    ∃ failing, server.failure event = some (ip, failing) ∧ failing ≤ entry
  found : ∀ request phoneIp file available send, event = .lookup request phoneIp file available →
    after.requests request = some send → send.phoneIp = phoneIp ∧
      (send.matched = true ↔ (server.tunnels.lookup phoneIp).isSome = true)
  written : ∀ send, server.writing event = some send →
    (server.connections[send.connection]? = some send.phoneIp ↔ send.matched = true)

/-- Connections are registered in their order, under the address they came from. -/
structure Ordered (server : TunnelServer File) : Prop where
  registered : ∀ ip entry, server.tunnels.lookup ip = some entry → server.connections[entry]? = some ip
  latest : ∀ connection ip entry, server.connections[connection]? = some ip →
    server.tunnels.lookup ip = some entry →
    connection ≤ entry
  sending : ∀ request send, server.requests request = some send →
    send.connection < server.connections.length ∧
      (∀ entry, server.tunnels.lookup send.phoneIp = some entry → send.connection ≤ entry) ∧
      (server.connections[send.connection]? = some send.phoneIp ↔ send.matched = true)

variable {server after : TunnelServer File} {event : TunnelEvent File} {request : Nat}

theorem Ordered.new : Ordered (new : TunnelServer File) := ⟨nofun, nofun, nofun⟩

theorem requests_setRequest (server : TunnelServer File) (request : Nat)
    (value : Option (SendRequest File)) :
    (server.setRequest request value).requests request = value := if_pos rfl

theorem Ordered.setRequest (ordered : Ordered server) (request : Nat)
    (value : Option (SendRequest File))
    (same : ∀ send, value = some send → send.connection < server.connections.length ∧
      (∀ entry, server.tunnels.lookup send.phoneIp = some entry → send.connection ≤ entry) ∧
      (server.connections[send.connection]? = some send.phoneIp ↔ send.matched = true)) :
    Ordered (server.setRequest request value) := by
  refine ⟨ordered.registered, ordered.latest, ?_⟩
  intro other send found
  dsimp only [TunnelServer.setRequest] at found
  split at found
  · exact same send found
  · exact ordered.sending other send found

theorem Ordered.erase (ordered : Ordered server)
    (ip : String) : Ordered { server with tunnels := server.tunnels.erase ip } := by
  have fewer {other : String} {entry : Nat}
    (found : (server.tunnels.erase ip).lookup other = some entry) :
      server.tunnels.lookup other = some entry := by
    by_cases same : other = ip
    · rw [same, AList.lookup_erase] at found
      cases found
    · rwa [AList.lookup_erase_ne same] at found
  refine ⟨fun other entry found => ordered.registered other entry (fewer found),
    fun connection other entry accepted found => ordered.latest connection other entry accepted
      (fewer found), ?_⟩
  intro request send found
  have ⟨accepted, newest, matching⟩ := ordered.sending request send found
  exact ⟨accepted, fun entry present => newest entry (fewer present), matching⟩

/-- A newer connection takes the place under its address. -/
theorem Ordered.connect (ordered : Ordered server) (ip : String) : Ordered (server.connect ip) := by
  have old {connection : Nat} {other : String}
    (accepted : server.connections[connection]? = some other) :
      connection < server.connections.length := (List.getElem?_eq_some_iff.mp accepted).1
  refine ⟨?_, ?_, ?_⟩
  · intro other entry found
    dsimp only [TunnelServer.connect] at found ⊢
    by_cases same : other = ip
    · subst same
      rw [AList.lookup_insert] at found
      cases found
      exact List.getElem?_concat_length
    · rw [AList.lookup_insert_ne same] at found
      have accepted := ordered.registered other entry found
      rwa [List.getElem?_append_left (old accepted)]
  · intro connection other entry accepted found
    dsimp only [TunnelServer.connect] at accepted found
    have inside : connection < server.connections.length + 1 := by
      have bound := (List.getElem?_eq_some_iff.mp accepted).1
      rwa [List.length_append] at bound
    by_cases same : other = ip
    · subst same
      rw [AList.lookup_insert] at found
      cases found
      omega
    · rw [AList.lookup_insert_ne same] at found
      rcases Nat.lt_or_ge connection server.connections.length with earlier | _
      · rw [List.getElem?_append_left earlier] at accepted
        exact ordered.latest connection other entry accepted found
      · have last : connection = server.connections.length := by omega
        subst last
        rw [List.getElem?_concat_length] at accepted
        exact absurd (Option.some.inj accepted).symm same
  · intro request send found
    have ⟨accepted, newest, matching⟩ := ordered.sending request send found
    dsimp only [TunnelServer.connect]
    refine ⟨?_, ?_, ?_⟩
    · rw [List.length_append]
      omega
    · intro entry present
      by_cases same : send.phoneIp = ip
      · rw [same, AList.lookup_insert] at present
        cases present
        omega
      · rw [AList.lookup_insert_ne same] at present
        exact newest entry present
    · rw [List.getElem?_append_left accepted]
      exact matching

theorem proceed_some
    (taken : server.proceed request failed next = some after) :
    ∃ send, server.requests request = some send ∧ send.failed = failed ∧ after = next send := by
  unfold proceed at taken
  split at taken
  · rename_i send found
    split at taken
    · rename_i turn
      cases taken
      exact ⟨send, found, turn, rfl⟩
    · cases taken
  · cases taken

theorem monitorFails_some (taken : server.monitorFails connection = some after) :
    after = { server with monitored := server.monitored.erase connection,
                          failing := connection :: server.failing } := by
  unfold monitorFails at taken
  split at taken
  · exact (Option.some.inj taken).symm
  · cases taken

theorem monitorRemoves_some (taken : server.monitorRemoves connection = some after) :
    ∃ ip, server.connections[connection]? = some ip ∧
      after = { server with failing := server.failing.erase connection,
                            tunnels := server.tunnels.erase ip } := by
  unfold monitorRemoves at taken
  split at taken
  · obtain ⟨ip, accepted, rfl⟩ := Option.map_eq_some_iff.mp taken
    exact ⟨ip, accepted, rfl⟩
  · cases taken

/-- A lookup takes the entry under the phone's address, or any other when there is none. -/
theorem lookup_some
    (found : server.lookup request phoneIp file available = some after) :
    after = server ∧ server.tunnels.lookup phoneIp = none ∧ server.requests request = none ∨
      ∃ connection matched ip, after = server.setRequest request
        (some { phoneIp, file, connection, matched, failed := false }) ∧
          (matched = true ↔ (server.tunnels.lookup phoneIp).isSome = true) ∧
          server.tunnels.lookup ip = some connection ∧ (matched = true ↔ ip = phoneIp) := by
  unfold TunnelServer.lookup at found
  split at found
  · cases found
  · rename_i fresh
    split at found
    · rename_i connection own
      cases found
      exact .inr ⟨connection, true, phoneIp, rfl, by simp [own], own, by simp⟩
    · rename_i ip absent
      obtain ⟨connection, present, rfl⟩ := Option.map_eq_some_iff.mp found
      have other : ip ≠ phoneIp := by
        rintro rfl
        rw [absent] at present
        cases present
      exact .inr ⟨connection, false, ip, rfl, by simp [absent], present, by simp [other]⟩
    · rename_i absent
      split at found
      · cases found
        exact .inl ⟨rfl, absent, by simpa using fresh⟩
      · cases found

theorem Ordered.lookup (ordered : Ordered server)
    (found : server.lookup request phoneIp file available = some after) : Ordered after := by
  rcases lookup_some found with ⟨rfl, _, _⟩ | ⟨connection, _, ip, rfl, own, present, same⟩
  · exact ordered
  · have accepted := ordered.registered ip connection present
    refine ordered.setRequest request _ ?_
    intro _ started
    cases started
    refine ⟨(List.getElem?_eq_some_iff.mp accepted).1, ?_, ?_⟩
    · intro entry other
      exact ordered.latest connection phoneIp entry
        (by rw [accepted, same.mp (own.mpr (by rw [other]; rfl))]) other
    · rw [accepted, Option.some_inj]
      exact same.symm

theorem Ordered.step (ordered : Ordered server) (taken : server.step event = some after) :
    Ordered after := by
  cases event with
  | connect ip =>
    cases taken
    exact ordered.connect ip
  | monitorFails =>
    rw [monitorFails_some taken]
    exact ⟨ordered.registered, ordered.latest, ordered.sending⟩
  | monitorRemoves =>
    obtain ⟨ip, _, rfl⟩ := monitorRemoves_some taken
    have erased := ordered.erase ip
    exact ⟨erased.registered, erased.latest, erased.sending⟩
  | lookup => exact ordered.lookup taken
  | readFails request =>
    obtain ⟨send, _, _, rfl⟩ := proceed_some taken
    exact ordered.setRequest request none nofun
  | write request =>
    obtain ⟨send, _, _, rfl⟩ := proceed_some taken
    have ended := ordered.setRequest request none nofun
    exact ⟨ended.registered, ended.latest, ended.sending⟩
  | writeFails request =>
    obtain ⟨send, found, _, rfl⟩ := proceed_some taken
    refine ordered.setRequest request _ ?_
    intro _ same
    cases same
    exact ordered.sending request send found
  | requestRemoves request =>
    obtain ⟨send, _, _, rfl⟩ := proceed_some taken
    have ended := (ordered.setRequest request none nofun).erase send.phoneIp
    exact ⟨ended.registered, ended.latest, ended.sending⟩

theorem not_removes (same : after.tunnels = server.tunnels) (ip : String)
    (entry : Nat) : ¬ Removes server event after ip entry := by
  intro removes
  obtain ⟨_, present, gone⟩ := removes
  rw [same] at gone
  exact gone present

theorem Removes.erased (removes : Removes server event after other entry)
    (removal : after.tunnels = server.tunnels.erase ip) :
    ip = other ∧ server.tunnels.lookup other = some entry := by
  obtain ⟨_, present, gone⟩ := removes
  refine ⟨?_, present⟩
  by_contra different
  rw [removal, AList.lookup_erase_ne (Ne.symm different)] at gone
  exact gone present

/-- An entry goes only in a removal, and then it is not older than the failing connection. -/
theorem Ordered.contained (ordered : Ordered server) (taken : server.step event = some after) :
    Contained server event after := by
  have sent (send : SendRequest File) (writes : server.writing event = some send) :
      server.connections[send.connection]? = some send.phoneIp ↔ send.matched = true := by
    unfold writing at writes
    split at writes
    · exact (ordered.sending _ send writes).2.2
    · exact (ordered.sending _ send writes).2.2
    · cases writes
  refine ⟨?_, ?_, sent⟩
  · intro ip entry removes
    cases event with
    | connect newer =>
      obtain ⟨other, present, gone⟩ := removes
      cases taken
      have different : ip ≠ newer := fun same => other (by rw [same])
      dsimp only [TunnelServer.connect] at gone
      rw [AList.lookup_insert_ne different] at gone
      exact absurd present gone
    | monitorFails =>
      cases monitorFails_some taken
      exact absurd removes (not_removes rfl ip entry)
    | monitorRemoves connection =>
      obtain ⟨_, accepted, rfl⟩ := monitorRemoves_some taken
      obtain ⟨rfl, present⟩ := removes.erased rfl
      exact ⟨connection, by simp [failure, accepted], ordered.latest connection _ entry accepted present⟩
    | lookup =>
      rcases lookup_some taken with ⟨rfl, _, _⟩ | ⟨connection, matched, _, rfl, _, _, _⟩
      · exact absurd removes (not_removes rfl ip entry)
      · exact absurd removes (not_removes rfl ip entry)
    | readFails request | write request | writeFails request =>
      obtain ⟨send, _, _, rfl⟩ := proceed_some taken
      exact absurd removes (not_removes rfl ip entry)
    | requestRemoves request =>
      obtain ⟨send, found, _, rfl⟩ := proceed_some taken
      obtain ⟨rfl, present⟩ := removes.erased rfl
      exact ⟨send.connection, by simp [failure, found], (ordered.sending request send found).2.1 entry present⟩
  · rintro _ _ _ _ _ rfl started
    rcases lookup_some taken with ⟨rfl, _, fresh⟩ | ⟨_, _, _, rfl, own, _, _⟩
    · rw [fresh] at started
      cases started
    · rw [requests_setRequest] at started
      cases started
      exact ⟨rfl, own⟩

/-- In every run a failure removes no entry but the one under its address, and no connection older
than the failing one; and what is sent to a phone that has a tunnel goes to a connection of it. -/
theorem contained_of_run (run : Execution step anything new events after) :
    EveryStep step Contained new events := by
  refine run.everyStep Ordered .new ?_
  intro _ _ _ ordered _ taken
  exact ⟨ordered.step taken, ordered.contained taken⟩

/-- What stands under the address of a failure is the failing connection itself, and a file is
written only where its request found an entry under the phone's own address. -/
def proper (server : TunnelServer File) (event : TunnelEvent File) : Bool :=
  (server.failure event).all (fun failed => (server.tunnels.lookup failed.1).all (· == failed.2)) &&
    (server.writing event).all (·.matched)

theorem removes_iff : server.proper event = true ↔
    (∀ ip failing entry, server.failure event = some (ip, failing) →
      server.tunnels.lookup ip = some entry → entry = failing) ∧
      ∀ send, server.writing event = some send → send.matched = true := by
  simp only [proper, Bool.and_eq_true, Option.all_eq_true, beq_iff_eq, Prod.forall]
  constructor
  · intro good
    exact ⟨fun ip failing entry failed => good.1 ip failing failed entry, good.2⟩
  · intro good
    exact ⟨fun ip failing failed entry => good.1 ip failing entry failed, good.2⟩

theorem Removes.of_failure {failing entry : Nat} (taken : server.step event = some after)
    (failed : server.failure event = some (ip, failing))
    (present : server.tunnels.lookup ip = some entry) :
    Removes server event after ip entry := by
  cases event with
  | monitorRemoves =>
    obtain ⟨_, accepted, rfl⟩ := monitorRemoves_some taken
    simp only [failure, accepted, Option.map_some, Option.some.injEq, Prod.mk.injEq] at failed
    refine ⟨by simp, present, ?_⟩
    rw [← failed.1, AList.lookup_erase]
    simp
  | requestRemoves =>
    obtain ⟨_, found, _, rfl⟩ := proceed_some taken
    simp only [failure, found, Option.map_some, Option.some.injEq, Prod.mk.injEq] at failed
    refine ⟨by simp, present, ?_⟩
    rw [← failed.1, AList.lookup_erase]
    simp
  | _ => cases failed

theorem Ordered.own_iff (ordered : Ordered server) (taken : server.step event = some after) :
    Own server event after ↔ server.proper event = true := by
  have contained := ordered.contained taken
  rw [removes_iff]
  constructor
  · intro own
    refine ⟨?_, fun send writes => (contained.written send writes).mp (own.written send writes)⟩
    intro ip failing entry failed present
    have same := own.removed ip entry (.of_failure taken failed present)
    rw [failed] at same
    cases same
    rfl
  · intro ⟨alone, matched⟩
    refine ⟨?_, fun send writes => (contained.written send writes).mpr (matched send writes)⟩
    intro ip entry removes
    obtain ⟨failing, failed, _⟩ := contained.removed ip entry removes
    rw [failed, alone ip failing entry failed removes.2.1]

/-- Failures remove their own entries and files reach their phones throughout a run exactly when
no phone has reconnected before a failure of its older connection is answered, and nothing is
written over a tunnel that was taken for want of the phone's own. -/
theorem own_of_run {events : List (TunnelEvent File)}
    (run : Execution step anything new events after) :
    EveryStep step Own new events ↔
      Execution step (fun server event => server.proper event = true) new events after := by
  refine run.everyStep_iff Ordered .new ?_ ?_
  · intro server event next ordered taken
    exact ordered.step taken
  · intro _ _ _ ordered taken
    exact ordered.own_iff taken

/-- A phone is served, a write to a second one fails, the first reconnects after its connection
was taken out, and a fallback to its tunnel ends before the write. -/
def replaced : List (TunnelEvent Bool) :=
  [.connect "192.168.43.1", .connect "10.0.0.7", .lookup 0 "192.168.43.1" true none, .write 0,
    .lookup 1 "10.0.0.7" false none, .writeFails 1, .requestRemoves 1, .monitorFails 1,
    .monitorRemoves 1,
    .monitorFails 0, .monitorRemoves 0, .connect "192.168.43.1",
    .lookup 2 "10.0.0.7" true (some "192.168.43.1"), .readFails 2, .lookup 3 "192.168.43.1" false none,
    .write 3]

theorem own_of_replaced : EveryStep step Own new replaced := by
  obtain ⟨_, run, _⟩ := exists_execution (fun _ => true)
    (show (replayWhere step proper new replaced).any _ = true by decide)
  exact (own_of_run run.plain).mpr run

/-- The monitor of a connection that the phone has replaced removes the new one, and so does a
write to it that fails; a file for a phone without a tunnel is written to another phone. -/
theorem not_own_of_reconnect :
    ¬ EveryStep step Own (new : TunnelServer Bool)
        [.connect "192.168.43.1", .monitorFails 0, .connect "192.168.43.1", .monitorRemoves 0] ∧
      ¬ EveryStep step Own (new : TunnelServer Bool)
        [.connect "192.168.43.1", .lookup 0 "192.168.43.1" true none,
          .connect "192.168.43.1", .writeFails 0,
          .requestRemoves 0] ∧
      ¬ EveryStep step Own (new : TunnelServer Bool)
        [.connect "192.168.43.1",
          .lookup 0 "192.168.43.7" true (some "192.168.43.1"), .write 0] := by
  refine ⟨?_, ?_, ?_⟩
  · intro every
    have last := (((every.tail rfl).tail rfl).tail rfl).head rfl
    have removed := last.removed "192.168.43.1" 1 ⟨nofun, by decide, by decide⟩
    revert removed
    decide
  · intro every
    have last := ((((every.tail rfl).tail rfl).tail rfl).tail rfl).head rfl
    have removed := last.removed "192.168.43.1" 1 ⟨nofun, by decide, by decide⟩
    revert removed
    decide
  · intro every
    have last := ((every.tail rfl).tail rfl).head rfl
    have written := last.written ⟨"192.168.43.7", true, 0, false, false⟩ rfl
    revert written
    decide

end TunnelServer

end DistributedOs.Tunnel
