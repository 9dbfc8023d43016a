import Santiago.Lib.Table
import Santiago.Server.Steps

/-!
# Santiago.Server.WellFormed

`WF` is what every run of the process keeps without any condition: the
connections are well formed, the acceptor's table knows every connection that
is not CLOSED, and a connection has one `closeConnection` task in the queue
from its close until that task has run.
-/

namespace Santiago.Server

open Effect Bytes PacketSocket Connection

/-- The process is well formed before it accepts anyone. -/
theorem wf_init : init.WF where
  connection_wf _ _ h := nomatch h
  nextPtr_le _ _ h := nomatch h
  known _ _ h := nomatch h
  active _ _ h := nomatch h
  active_of_open _ _ h := nomatch h
  closing _ := rfl
  request_lt _ _ h := nomatch h

/-! ## Changes of one connection -/

/-- A connection counts as CLOSED by the state of its strand. -/
theorem isClosed_setStrand (s : Server) (c connectionId : Nat) (t : Strand) (id : Nat) :
    (s.setStrand c connectionId t).isClosed id =
      if s.activeConnections id = some c then decide (t.connection.state = .closed)
      else s.isClosed id := by
  simp only [isClosed, setStrand]
  cases ha : s.activeConnections id with
  | none => simp
  | some c' =>
      by_cases hc : c' = c
      · subst hc
        simp
      · simp [hc]

/-- A strand moves on, and the acceptor's queue becomes `tasks`. -/
theorem WF.setStrand {s : Server} (hwf : s.WF) {c : Nat} {k : AcceptedConnection}
    {l : Strand.Step} {t : Strand} {es : List Event} (hk : s.connections c = some k)
    (hm : Strand.Moves (k.strand.allocateFrom s.nextAddress) l t es) (tasks : List AcceptorTask)
    (hclosing : ∀ id, tasks.count (.closeConnection id) =
      if (s.setStrand c k.connectionId t).isClosed id then 1 else 0) :
    ((s.setStrand c k.connectionId t).withTasks tasks).WF := by
  have hle := hm.life.nextPtr_le
  have hfrom : s.nextAddress ≤ t.connection.data.nextPtr :=
    Nat.le_trans (Nat.le_max_right _ _) hle
  constructor
  case connection_wf =>
    intro c' k' hk'
    obtain ⟨_, rfl⟩ | ⟨_, hk'⟩ := Table.of_insert hk'
    · exact hm.wf (hwf.connection_wf c k hk)
    · exact hwf.connection_wf c' k' hk'
  case nextPtr_le =>
    intro c' k' hk'
    obtain ⟨_, rfl⟩ | ⟨_, hk'⟩ := Table.of_insert hk'
    · exact Nat.le_refl _
    · exact Nat.le_trans (hwf.nextPtr_le c' k' hk') hfrom
  case known =>
    intro c' k' hk'
    obtain ⟨rfl, _⟩ | ⟨_, hk'⟩ := Table.of_insert hk'
    · exact hwf.known c' k hk
    · exact hwf.known c' k' hk'
  case active =>
    intro id c' ha
    obtain ⟨k', hk', hid⟩ := hwf.active id c' ha
    by_cases hc : c' = c
    · subst hc
      rw [hk, Option.some.injEq] at hk'
      subst hk'
      exact ⟨⟨k.connectionId, t⟩, Function.update_self .., hid⟩
    · exact ⟨k', (Function.update_of_ne hc ..).trans hk', hid⟩
  case active_of_open =>
    intro c' k' hk' hopen
    obtain ⟨rfl, rfl⟩ | ⟨_, hk'⟩ := Table.of_insert hk'
    · exact hwf.active_of_open c' k hk fun hclosed => hopen (hm.life.state_mono.2 hclosed)
    · exact hwf.active_of_open c' k' hk' hopen
  case closing => exact hclosing
  case request_lt => exact hwf.request_lt

/-- A step of a strand that does not close the connection. -/
theorem WF.setStrand_quiet {s : Server} (hwf : s.WF) {c : Nat} {k : AcceptedConnection}
    {l : Strand.Step} {t : Strand} {es : List Event} (hk : s.connections c = some k)
    (hm : Strand.Moves (k.strand.allocateFrom s.nextAddress) l t es)
    (hst : t.connection.state = .closed → k.strand.connection.state = .closed) :
    (s.setStrand c k.connectionId t).WF := by
  refine hwf.setStrand hk hm s.acceptorStrand fun id => ?_
  have hsame : (s.setStrand c k.connectionId t).isClosed id = s.isClosed id := by
    rw [isClosed_setStrand]
    by_cases ha : s.activeConnections id = some c
    · have hiff : t.connection.state = .closed ↔ k.strand.connection.state = .closed :=
        ⟨hst, hm.life.state_mono.2⟩
      rw [if_pos ha]
      simp [isClosed, ha, hk, hiff]
    · rw [if_neg ha]
  rw [hwf.closing id, hsame]

/-- The step that closes the connection posts the task. -/
theorem WF.setStrand_closing {s : Server} (hwf : s.WF) {c : Nat} {k : AcceptedConnection}
    {l : Strand.Step} {t : Strand} {es : List Event} (hk : s.connections c = some k)
    (hm : Strand.Moves (k.strand.allocateFrom s.nextAddress) l t es)
    (hopen : k.strand.connection.state ≠ .closed) (hclosed : t.connection.state = .closed) :
    ((s.setStrand c k.connectionId t).post (.closeConnection k.connectionId)).WF := by
  refine hwf.setStrand hk hm (s.acceptorStrand ++ [.closeConnection k.connectionId]) fun id => ?_
  have hactive := hwf.active_of_open c k hk hopen
  rw [List.count_append, hwf.closing id, isClosed_setStrand]
  by_cases hid : id = k.connectionId
  · subst hid
    have hsame : s.isClosed k.connectionId = false := by simp [isClosed, hactive, hk, hopen]
    rw [hsame, if_pos hactive]
    simp [hclosed]
  · have hne : s.activeConnections id ≠ some c := fun ha => by
      obtain ⟨k', hk', hid'⟩ := hwf.active id c ha
      rw [hk, Option.some.injEq] at hk'
      subst hk'
      exact hid hid'.symm
    rw [if_neg hne]
    simp [Ne.symm hid]

/-! ### Changes from outside the strand -/

/-- `commitReply` is a step of the connection, if the object was ever made. -/
theorem committed_cases (s : Server) (rq : Request) (ptr : Nat) :
    s.connections rq.connectionWeakPtr = none ∧ s.committed rq ptr = s ∨
      ∃ k t, s.connections rq.connectionWeakPtr = some k ∧
      Strand.Moves (k.strand.allocateFrom s.nextAddress) (.commitReply rq.requestId ptr) t [] ∧
      s.committed rq ptr = s.setStrand rq.connectionWeakPtr k.connectionId t := by
  rw [committed, onConnection]
  cases hk : s.connections rq.connectionWeakPtr with
  | none => exact .inl ⟨rfl, rfl⟩
  | some k => exact .inr ⟨k, _, rfl, .commitReply, rfl⟩

/-- A write reaches no connection, or it is a step of one. -/
theorem edited_cases (s : Server) (rq : Request) (ptr : Nat) (change : UserEdit) :
    s.connections rq.home = none ∧ s.edited rq ptr change = s ∨
    ∃ k t, s.connections rq.home = some k ∧
      Strand.Moves (k.strand.allocateFrom s.nextAddress) (.edit rq.requestId ptr change) t [] ∧
      s.edited rq ptr change = s.setStrand rq.home k.connectionId t := by
  rw [edited, onConnection]
  cases hk : s.connections rq.home with
  | none => exact .inl ⟨rfl, rfl⟩
  | some k => exact .inr ⟨k, _, rfl, .edit, rfl⟩

/-- A queued reply keeps the process well formed. -/
theorem WF.committed {s : Server} (hwf : s.WF) (rq : Request) (ptr : Nat) :
    (s.committed rq ptr).WF := by
  obtain ⟨_, heq⟩ | ⟨k, t, hk, hm, heq⟩ := s.committed_cases rq ptr
  · rw [heq]
    exact hwf
  · have hst : t.connection.state = .closed → k.strand.connection.state = .closed := by
      cases hm
      exact id
    rw [heq]
    exact hwf.setStrand_quiet hk hm hst

/-- So does what a user writes. -/
theorem WF.edited {s : Server} (hwf : s.WF) (rq : Request) (ptr : Nat) (change : UserEdit) :
    (s.edited rq ptr change).WF := by
  obtain ⟨_, heq⟩ | ⟨k, t, hk, hm, heq⟩ := s.edited_cases rq ptr change
  · rw [heq]
    exact hwf
  · have hst : t.connection.state = .closed → k.strand.connection.state = .closed := by
      cases hm
      exact id
    rw [heq]
    exact hwf.setStrand_quiet hk hm hst

/-! ## The other changes -/

/-- So does a change of a request. -/
theorem WF.setRequest {s : Server} (hwf : s.WF) {q : Nat} (hq : q < s.nextRequest) (rq : Request) :
    (s.setRequest q rq).WF :=
  { hwf with
    request_lt := fun q' rq' hq' => by
      obtain ⟨rfl, _⟩ | ⟨_, hq'⟩ := Table.of_insert hq'
      · exact hq
      · exact hwf.request_lt q' rq' hq' }

/-- A task that does not close a connection is taken off the queue. -/
theorem WF.withTasks {s : Server} (hwf : s.WF) {task : AcceptorTask} {rest : List AcceptorTask}
    (h : s.acceptorStrand = task :: rest) (htask : ∀ id, task ≠ .closeConnection id) :
    (s.withTasks rest).WF :=
  { hwf with
    closing := fun id => by
      have hcount := hwf.closing id
      rw [h, List.count_cons_of_ne (htask id)] at hcount
      exact hcount }

/-- So does a task that closes no connection. -/
theorem WF.post {s : Server} (hwf : s.WF) {task : AcceptorTask}
    (htask : ∀ id, task ≠ .closeConnection id) : (s.post task).WF :=
  { hwf with
    closing := fun id => by
      have hcount := hwf.closing id
      have hpost : (s.acceptorStrand ++ [task]).count (.closeConnection id) =
          s.acceptorStrand.count (.closeConnection id) := by
        simp [htask id]
      exact hpost.trans hcount }

/-- The id of a `closeConnection` task is that of a closed connection. -/
theorem WF.isClosed_of_task {s : Server} (hwf : s.WF) {id : Nat} {rest : List AcceptorTask}
    (h : s.acceptorStrand = .closeConnection id :: rest) :
    s.isClosed id = true ∧ rest.count (.closeConnection id) = 0 := by
  have hcount := hwf.closing id
  rw [h, List.count_cons_self] at hcount
  split at hcount
  · next hclosed => exact ⟨hclosed, by omega⟩
  · omega

/-- So does the task that takes a CLOSED connection out of the table. -/
theorem WF.closeConnection {s : Server} (hwf : s.WF) {id : Nat} {rest : List AcceptorTask}
    (h : s.acceptorStrand = .closeConnection id :: rest) :
    WF { s.withTasks rest with
      activeConnections := Function.update s.activeConnections id none } := by
  obtain ⟨hclosed, hnone⟩ := hwf.isClosed_of_task h
  constructor
  case connection_wf => exact hwf.connection_wf
  case nextPtr_le => exact hwf.nextPtr_le
  case known => exact hwf.known
  case active => exact fun id' c ha => hwf.active id' c (Table.of_erase ha).2
  case active_of_open =>
    intro c k hk hopen
    have hactive := hwf.active_of_open c k hk hopen
    have hne : k.connectionId ≠ id := fun heq => by
      have hk' : s.connections c = some k := hk
      subst heq
      simp [isClosed, hactive, hk', hopen] at hclosed
    exact (Function.update_of_ne hne ..).trans hactive
  case closing =>
    intro id'
    show rest.count (.closeConnection id') = _
    by_cases hid : id' = id
    · subst hid
      rw [hnone]
      simp [isClosed]
    · have hcount := hwf.closing id'
      rw [h, List.count_cons_of_ne (by simpa using Ne.symm hid)] at hcount
      rw [hcount]
      simp only [isClosed, Function.update_of_ne hid]
      rfl
  case request_lt => exact hwf.request_lt

/-- So does a new connection, under an id that is free. -/
theorem WF.accepted {s : Server} (hwf : s.WF) (fs : List (Option Nat)) (u : Nat → BitVec 32)
    (hfree : s.activeConnections s.nextConnectionId = none) : (s.accepted fs u).WF := by
  have hnew : s.connections s.nextConnection = none := by
    cases hk : s.connections s.nextConnection with
    | none => rfl
    | some k => exact absurd (hwf.known _ k hk) (Nat.lt_irrefl _)
  constructor
  case connection_wf =>
    intro c k hk
    obtain ⟨_, rfl⟩ | ⟨_, hk⟩ := Table.of_insert hk
    · exact Strand.wf_init fs u
    · exact hwf.connection_wf c k hk
  case nextPtr_le =>
    intro c k hk
    obtain ⟨_, rfl⟩ | ⟨_, hk⟩ := Table.of_insert hk
    · exact Nat.zero_le _
    · exact hwf.nextPtr_le c k hk
  case known =>
    intro c k hk
    obtain ⟨rfl, _⟩ | ⟨_, hk⟩ := Table.of_insert hk
    · exact Nat.lt_succ_self _
    · exact Nat.lt_succ_of_lt (hwf.known c k hk)
  case active =>
    intro id c ha
    obtain ⟨rfl, rfl⟩ | ⟨_, ha⟩ := Table.of_insert ha
    · exact ⟨_, Function.update_self .., rfl⟩
    · obtain ⟨k, hk, hid⟩ := hwf.active id c ha
      have hne : c ≠ s.nextConnection := fun heq => by
        rw [heq, hnew] at hk
        cases hk
      exact ⟨k, (Function.update_of_ne hne ..).trans hk, hid⟩
  case active_of_open =>
    intro c k hk hopen
    obtain ⟨rfl, rfl⟩ | ⟨_, hk⟩ := Table.of_insert hk
    · exact Function.update_self ..
    · have hactive := hwf.active_of_open c k hk hopen
      have hne : k.connectionId ≠ s.nextConnectionId := fun heq => by
        rw [heq, hfree] at hactive
        cases hactive
      exact (Function.update_of_ne hne ..).trans hactive
  case closing =>
    intro id
    show s.acceptorStrand.count (.closeConnection id) = _
    rw [hwf.closing id]
    by_cases hid : id = s.nextConnectionId
    · subst hid
      have hopen : (Strand.init fs u).connection.state ≠ .closed := by
        simp [Strand.init, Connection.start, Connection.init, setSocket]
      simp [isClosed, hfree, Server.accepted, hopen]
    · have hsame : (s.accepted fs u).isClosed id = s.isClosed id := by
        simp only [isClosed, Server.accepted, Function.update_of_ne hid]
        cases ha : s.activeConnections id with
        | none => rfl
        | some c =>
            obtain ⟨k, hk, _⟩ := hwf.active id c ha
            have hne : c ≠ s.nextConnection := fun heq => by
              rw [heq, hnew] at hk
              cases hk
            simp [hne]
      rw [hsame]
  case request_lt => exact hwf.request_lt

/-- So does a new request. -/
theorem WF.requested {s : Server} (hwf : s.WF) (c id active r ptr : Nat) :
    (s.requested c id active r ptr).WF := by
  have hpost : (s.post (.handleNewRequest s.nextRequest)).WF := hwf.post (by simp)
  constructor
  case connection_wf => exact hwf.connection_wf
  case nextPtr_le => exact hwf.nextPtr_le
  case known => exact hwf.known
  case active => exact hwf.active
  case active_of_open => exact hwf.active_of_open
  case closing => exact hpost.closing
  case request_lt =>
    intro q rq hq
    obtain ⟨rfl, _⟩ | ⟨_, hq⟩ := Table.of_insert hq
    · exact Nat.lt_succ_self _
    · exact Nat.lt_succ_of_lt (hwf.request_lt q rq hq)

/-! ## Every step -/

/-- Every step keeps the process well formed. -/
theorem Moves.wf {s s' : Server} {l : Step} {es : List (Nat × Event)} (h : Moves s l s' es)
    (hwf : s.WF) : s'.WF := by
  cases h with
  | accept hfree => exact hwf.accepted _ _ hfree
  | strand hk hm _ hst => exact hwf.setStrand_quiet hk hm hst
  | ready hk hm _ _ _ hst =>
      have hquiet := hwf.setStrand_quiet hk hm fun hclosed => hst ▸ hclosed
      exact hquiet.requested _ _ _ _ _
  | closing hk hm _ hopen hclosed => exact hwf.setStrand_closing hk hm hopen hclosed
  | closeConnection htasks => exact hwf.closeConnection htasks
  | noRequest htasks => exact hwf.withTasks htasks (by simp)
  | lost htasks =>
      have hpop := hwf.withTasks htasks (by simp)
      exact { hpop with }
  | notRouted htasks hq =>
      have hpop := hwf.withTasks htasks (by simp)
      exact hpop.setRequest (hwf.request_lt _ _ hq) _
  | @stored q ptr rq rest htasks hq =>
      have hpop := hwf.withTasks htasks (by simp)
      have hset := hpop.setRequest (hwf.request_lt q rq hq) (rq.withPhase .held)
      exact { hset with }
  | handlerDeleted htasks =>
      have hpop := hwf.withTasks htasks (by simp)
      exact { hpop with }
  | denied => exact hwf
  | commit hq =>
      have hlt := hwf.request_lt _ _ hq
      exact (hwf.committed _ _).setRequest (by simpa using hlt) _
  | cancel hq =>
      have hlt := hwf.request_lt _ _ hq
      exact ((hwf.edited _ _ _).committed _ _).setRequest (by simpa using hlt) _
  | edit => exact hwf.edited _ _ _
  | release hq =>
      split
      · exact hwf.setRequest (hwf.request_lt _ _ hq) _
      · exact (hwf.post (by simp)).setRequest (hwf.request_lt _ _ hq) _
  | destroyed hq => exact hwf.setRequest (hwf.request_lt _ _ hq) _
  | cancelling hq => exact hwf.setRequest (hwf.request_lt _ _ hq) _
  | destroyValid hq =>
      have hlt := hwf.request_lt _ _ hq
      exact ((hwf.edited _ _ _).committed _ _).setRequest (by simpa using hlt) _
  | stop => exact { hwf with }

end Santiago.Server
