import SslSocks.NodeParts
import SslSocks.UdpTables

/-!
# The peers of `_udp_send`

A reply goes to the endpoint that `_peers` of `_udp_send` has for its session. The
table is filled through the strand of that relay, once for each session, so
`Relay.drain` looks at it after the posted handlers. `Node.PeersMeet` names the steps
that keep the entry of every live source: `_udp_send` is replaced, or all peers are
cleared by the expiry of a source without a session, only when no source has one.
-/

namespace SslSocks

open Lib

/-- What a posted handler does to `_peers`. -/
def RelayTask.onPeers (peers : Map UInt32 Endpoint) : RelayTask → Map UInt32 Endpoint
  | .addPeer session peer => peers.insert session peer
  | .delPeer session => if session = 0 then ∅ else peers.erase session
  | _ => peers

namespace Relay

/-- The relay after the handlers posted to its strand. -/
def drain (r : Relay) : Relay := r.inbox.foldl runTask r

/-- The entries of the drained table are still there. -/
def Keeps (r r' : Relay) : Prop :=
  ∀ s peer, r.drain.udp.peers.lookup s = some peer →
    r'.drain.udp.peers.lookup s = some peer

variable {r r' r'' : Relay}

theorem runTask_peers (r : Relay) (task : RelayTask) :
    (r.runTask task).udp.peers = task.onPeers r.udp.peers ∧ (r.runTask task).type = r.type := by
  cases task with
  | sendData buf =>
    simp only [runTask, sendDataTask]
    split
    · exact ⟨rfl, rfl⟩
    · split <;> exact ⟨rfl, rfl⟩
  | stopRelay =>
    simp only [runTask, stopTask]
    split
    · split <;> exact ⟨rfl, rfl⟩
    · exact ⟨rfl, rfl⟩
  | startInit | addPeer session peer | delPeer session => exact ⟨rfl, rfl⟩

theorem foldl_runTask (tasks : List RelayTask) (r : Relay) :
    (tasks.foldl runTask r).udp.peers = tasks.foldl RelayTask.onPeers r.udp.peers ∧
      (tasks.foldl runTask r).type = r.type := by
  induction tasks generalizing r with
  | nil => exact ⟨rfl, rfl⟩
  | cons task tasks ih =>
    obtain ⟨peers, type⟩ := runTask_peers r task
    rw [List.foldl_cons, List.foldl_cons, ← peers]
    exact ⟨(ih _).1, (ih _).2.trans type⟩

theorem drain_peers (r : Relay) :
    r.drain.udp.peers = r.inbox.foldl RelayTask.onPeers r.udp.peers :=
  (foldl_runTask r.inbox r).1

theorem drain_type (r : Relay) : r.drain.type = r.type := (foldl_runTask r.inbox r).2

theorem Keeps.trans (first : Keeps r r') (second : Keeps r' r'') : Keeps r r'' :=
  fun s peer there => second s peer (first s peer there)

/-- More entries before the handlers are more entries after them. -/
theorem onPeers_mono {tasks : List RelayTask} {peers peers' : Map UInt32 Endpoint}
    (more : ∀ {s peer}, peers.lookup s = some peer → peers'.lookup s = some peer)
    {s : UInt32} {peer : Endpoint}
    (there : (tasks.foldl RelayTask.onPeers peers).lookup s = some peer) :
    (tasks.foldl RelayTask.onPeers peers').lookup s = some peer := by
  induction tasks generalizing peers peers' with
  | nil => exact more there
  | cons task tasks ih =>
    refine @ih (task.onPeers peers) _ (fun {s' peer'} found => ?_) there
    cases task with
    | addPeer session e =>
      simp only [RelayTask.onPeers, Map.lookup_insert] at found ⊢
      split at found
      · rename_i same
        rw [if_pos same]
        exact found
      · rename_i other
        rw [if_neg other]
        exact more found
    | delPeer session =>
      simp only [RelayTask.onPeers] at found ⊢
      split at found
      · rw [Map.lookup_empty] at found
        cases found
      · rename_i one
        rw [if_neg one]
        obtain ⟨other, before⟩ := Map.of_lookup_erase found
        rw [Map.lookup_erase, if_neg other]
        exact more before
    | sendData _ | stopRelay | startInit => exact more found

theorem Keeps.of_eq (peers : r'.udp.peers = r.udp.peers) (inbox : r'.inbox = r.inbox) :
    Keeps r r' := by
  intro s peer there
  rw [drain_peers] at there ⊢
  rw [peers, inbox]
  exact there

theorem stopHere_inbox (r : Relay) :
    r.stopHere.inbox = r.inbox ∧ r.stopHere.udp.peers = r.udp.peers := by
  unfold stopHere stopTask
  split
  · exact ⟨rfl, rfl⟩
  · split
    · split <;> exact ⟨rfl, rfl⟩
    · exact ⟨rfl, rfl⟩

theorem SendLoop.keeps (loop : SendLoop r r') : Keeps r r' := by
  cases loop with
  | empty | stopped | stream => exact Keeps.of_eq rfl rfl
  | datagram _ _ _ _ _ _ kept =>
    intro s peer there
    rw [drain_peers] at there ⊢
    exact onPeers_mono kept there
  | threw udp sock _ _ _ kept =>
    intro s peer there
    rw [drain_peers] at there ⊢
    rw [(stopHere_inbox _).1, (stopHere_inbox _).2]
    exact onPeers_mono kept there

theorem Handles.keeps {alive : Bool} {ev : RelayEvent} {outs : List RelayOut}
    (handled : Handles alive r ev r' outs) : Keeps r (r'.note outs) := by
  -- a handler that has run has done to the table what it was to do
  have ran {task : RelayTask} {inbox : List RelayTask} {r' : Relay}
      (queue : r.inbox = task :: inbox) (rest : r'.inbox = inbox)
      (peers : r'.udp.peers = task.onPeers r.udp.peers) : Keeps r r' := by
    intro s peer there
    rw [drain_peers, queue, List.foldl_cons] at there
    rw [drain_peers, rest, peers]
    exact there
  have noted {r' : Relay} (keeps : Keeps r r') : Keeps r (r'.note outs) :=
    keeps.trans (Keeps.of_eq rfl rfl)
  cases handled with
  | dropped queue _ | pushed queue _ | startInit queue | addPeer queue | delPeer queue =>
    refine noted (ran queue ?_ ?_) <;> rfl
  | @stopTask inbox queue =>
    have stopped := runTask_peers { r with inbox } .stopRelay
    refine noted (ran queue ?_ stopped.1)
    unfold Relay.stopTask
    split
    · split <;> rfl
    · rfl
  | startSend _ _ loop =>
    refine noted (Keeps.trans ?_ loop.keeps)
    exact Keeps.of_eq rfl rfl
  | sent _ loop =>
    refine noted (Keeps.trans ?_ loop.keeps)
    exact Keeps.of_eq rfl rfl
  | sendError | readThrew | readError | startupThrew | requestBad | directFailed =>
    exact noted (Keeps.of_eq (stopHere_inbox _).2 (stopHere_inbox _).1)
  | _ => exact noted (Keeps.of_eq rfl rfl)

theorem Calls.keeps {c : RelayCall} (called : Calls r c r') (noAdd : ∀ s e, c ≠ .addPeer s e)
    (noDel : ∀ s, c ≠ .delPeer s) : Keeps r r' := by
  have posted {task : RelayTask} {r' : Relay} (inbox : r'.inbox = r.inbox ++ [task])
      (peers : r'.udp.peers = r.udp.peers) (quiet : ∀ p, task.onPeers p = p) : Keeps r r' := by
    intro s peer there
    rw [drain_peers] at there ⊢
    rw [inbox, peers, List.foldl_append, List.foldl_cons, List.foldl_nil, quiet]
    exact there
  cases called with
  | sendData | stopRaw _ _ _ | startRead | startUdpRemote _ _ | startUdpLocal _ =>
    refine posted rfl rfl fun _ => ?_
    rfl
  | stopSsl _ _ _ | count _ | begin | emit => exact Keeps.of_eq rfl rfl
  | addPeer => exact absurd rfl (noAdd _ _)
  | delPeer => exact absurd rfl (noDel _)

theorem rebind_peers (r : Relay) (addr : Endpoint) (done : Nat) :
    (r.rebind addr done).udp.peers = r.udp.peers := by
  obtain ⟨udp, sock, same, peers⟩ := rebind_eq r addr done
  rw [same]
  exact peers

/-- `get_send_data_addr` finds the peer of the session, unless a call on the socket throws. -/
theorem getSendDataAddr_lookup {buf : Frame} {peer : Endpoint} (done : Nat)
    (transparent : r.type = .localTransparent) (there : r.udp.peers.lookup buf.session = some peer) :
    ∃ r', r.getSendDataAddr buf done =
      if r.udp.localAddr ≠ getDataAddr buf.payload ∧ rebinds (getDataAddr buf.payload) done = false
      then .error r' else .ok (r', peer) := by
  unfold getSendDataAddr
  split
  · rename_i remote
    cases transparent.symm.trans remote
  · simp only
    generalize movedIs : (if r.udp.localAddr ≠ getDataAddr buf.payload then _ else r) = moved
    have peers : moved.udp.peers = r.udp.peers := by
      rw [← movedIs]
      split
      · exact rebind_peers _ _ _
      · rfl
    rw [peers, there]
    exact ⟨moved, rfl⟩
  · rename_i socks
    cases transparent.symm.trans socks

/-- A reply goes to the peer of its session, if it goes; and it does when it comes from an
endpoint that the socket can be bound to. -/
theorem getSendDataAddr_peer {buf : Frame} {peer : Endpoint}
    (transparent : r.type = .localTransparent) (there : r.udp.peers.lookup buf.session = some peer) :
    (∀ done r' dst, r.getSendDataAddr buf done = .ok (r', dst) → dst = peer) ∧
      ((getDataAddr buf.payload).addr.isV6 → ∃ r', r.getSendDataAddr buf 5 = .ok (r', peer)) := by
  constructor
  · intro done r' dst found
    obtain ⟨moved, same⟩ := getSendDataAddr_lookup done transparent there
    rw [same] at found
    split at found
    · cases found
    · cases found
      rfl
  · intro family
    obtain ⟨moved, same⟩ := getSendDataAddr_lookup 5 transparent there
    have binds : rebinds (getDataAddr buf.payload) 5 := by simp [rebinds, family]
    refine ⟨moved, same.trans (if_neg fun fails => ?_)⟩
    exact Bool.false_ne_true (fails.2.symm.trans binds)

end Relay

namespace Node

/-- A reply of the session goes to the source, once the handlers posted to
`_udp_send` have run. -/
def Reaches (n : Node) (session : UInt32) (src : Endpoint) : Prop :=
  ∃ u, n.udpSend = some u ∧ (n.objs u).drain.udp.peers.lookup session = some src

/-- The session is in `_udp_srcs` and was created by `send_udp_data` for the source: it is
not an entry for the default endpoint that a lookup has inserted. -/
def Created (n : Node) (session : UInt32) (src : Endpoint) : Prop :=
  n.udpSrcs.lookup session = some src ∧
    (src ≠ default ∨ session ≠ 0 ∧ ∃ entry ∈ n.srcs.lookup src, entry.session = session)

instance (n : Node) (session : UInt32) (src : Endpoint) : Decidable (n.Created session src) :=
  inferInstanceAs (Decidable (_ ∧ (_ ∨ _ ∧ _)))

/-- No source has a session. -/
def NoSession (n : Node) : Prop := ∀ entry ∈ n.srcs.values, entry.session = 0

instance (n : Node) : Decidable n.NoSession := inferInstanceAs (Decidable (∀ _ ∈ _, _))

/-- A handler that keeps the peers of the live sources: it does not replace
`_udp_send` while there are any, and does not throw on a first packet, whose session
is new. -/
def PeersMeetTask (n : Node) (throws : Throws) : ManagerTask → Prop
  | .addResponse _ buf =>
    buf.cmd = .dataUdp → n.udpSendStopped → throws.newUdp ∨ n.NoSession
  | .sendUdpData src _ =>
    n.FirstPacket src → ¬ n.UdpThrows throws ∧ (n.udpSendStopped → n.NoSession) ∧
      n.session + 1 ≠ 0 ∧ ∀ entry ∈ n.srcs.values, entry.session ≠ n.session + 1
  | _ => True

instance (n : Node) (throws : Throws) : DecidablePred (n.PeersMeetTask throws)
  | .addResponse _ _ => inferInstanceAs (Decidable (_ → _ → _))
  | .sendUdpData _ _ => inferInstanceAs (Decidable (_ → _))
  | .addRequest _ _ | .addLocalRawTcp _ => isTrue trivial

/-- A round of the timer in which no source without a session expires while another
has one, unless the tables are cleared first. -/
def PeersMeetTick (n : Node) : Prop :=
  n.sslExpires ∨ n.NoSession ∨ ∀ entry ∈ n.srcs.values, entry.session = 0 → entry.timeout - 1 ≠ 0

instance (n : Node) : Decidable n.PeersMeetTick := inferInstanceAs (Decidable (_ ∨ _ ∨ _))

/-- A step that keeps the peers of the live sources. -/
def PeersMeet (n : Node) : NodeAction → Prop
  | .manager throws => ∀ task ∈ n.strand.head?, n.PeersMeetTask throws task
  | .tick => n.PeersMeetTick
  | _ => True

instance (n : Node) : DecidablePred n.PeersMeet
  | .manager _ => inferInstanceAs (Decidable (∀ _ ∈ _, _))
  | .tick => inferInstanceAs (Decidable n.PeersMeetTick)
  | .accept _ | .udpPacket _ _ _ | .release | .relay _ _ => isTrue trivial

/-- `_udp_send` is there and has the peer of every live source; sessions of different
sources differ, and `_udp_srcs` leads to the sources, or to the default endpoint that
a lookup has inserted. -/
structure Delivers (n : Node) : Prop where
  transparent : n.type = .localTransparent
  current : ∃ u, n.udpSend = some u
  reaches : ∀ {src entry}, n.srcs.lookup src = some entry → entry.session ≠ 0 →
    n.Reaches entry.session src
  distinct : ∀ {src src' entry entry'}, n.srcs.lookup src = some entry →
    n.srcs.lookup src' = some entry' → entry.session = entry'.session →
    entry.session ≠ 0 → src = src'
  back : ∀ {s src}, n.udpSrcs.lookup s = some src → src ≠ default →
    s ≠ 0 ∧ ∃ entry, n.srcs.lookup src = some entry ∧ entry.session = s

variable {n m k : Node}

/-- The tables are the same, and no peer of an old relay is lost. -/
structure SamePeers (n m : Node) : Prop where
  type : m.type = n.type
  udpSend : m.udpSend = n.udpSend
  srcs : m.srcs = n.srcs
  udpSrcs : m.udpSrcs = n.udpSrcs
  keeps : ∀ {u}, u < n.next → Relay.Keeps (n.objs u) (m.objs u)

theorem Delivers.same (delivers : Delivers n) (wf : WellFormed n) (same : SamePeers n m) :
    Delivers m where
  transparent := same.type.trans delivers.transparent
  current := same.udpSend.symm ▸ delivers.current
  reaches found nonzero := by
    obtain ⟨u, current, there⟩ := delivers.reaches (same.srcs ▸ found) nonzero
    exact ⟨u, same.udpSend.trans current, same.keeps (wf.udpSend current).1 _ _ there⟩
  distinct found found' := delivers.distinct (same.srcs ▸ found) (same.srcs ▸ found')
  back there := by
    rw [same.srcs]
    exact delivers.back (same.udpSrcs ▸ there)

theorem samePeers_call (n : Node) (r : RelayId) {c : RelayCall} (noAdd : ∀ s e, c ≠ .addPeer s e)
    (noDel : ∀ s, c ≠ .delPeer s) : SamePeers n (n.call r c) := by
  refine ⟨rfl, rfl, rfl, rfl, fun {u} _ => ?_⟩
  rw [objs_call]
  split
  · rename_i same
    rw [same]
    exact (Relay.calls_call (n.objs r) c).keeps noAdd noDel
  · exact fun _ _ => id

theorem samePeers_requested {relay : Option RelayId} {buf : Frame}
    (requested : Requested relay buf n m) : SamePeers n m := by
  cases requested with
  | @sent k _ _ =>
    have called := samePeers_call n k (c := .sendData buf) nofun nofun
    exact ⟨rfl, rfl, rfl, rfl, called.keeps⟩
  | made _ _ =>
    refine ⟨rfl, rfl, rfl, rfl, fun {u} old => ?_⟩
    have same := objs_make_of_lt (n.newSslRelay.sendData buf) old
    exact fun s peer there => (congrArg (fun r => r.drain.udp.peers.lookup s) same).trans there
  | lost _ => exact ⟨rfl, rfl, rfl, rfl, fun _ _ _ => id⟩

theorem samePeers_make (n : Node) (relay : Relay) {relays : Map UInt32 (Option RelayId)} :
    SamePeers n { n.make relay with relays } := by
  refine ⟨rfl, rfl, rfl, rfl, fun {u} old => ?_⟩
  have same := objs_make_of_lt relay old
  exact fun s peer there => (congrArg (fun r => r.drain.udp.peers.lookup s) same).trans there

theorem samePeers_part (part : Part n m) : SamePeers n m := by
  have calls (n : Node) (r : RelayId) {c : RelayCall} (noAdd : ∀ s e, c ≠ .addPeer s e)
      (noDel : ∀ s, c ≠ .delPeer s) := samePeers_call n r noAdd noDel
  cases part with
  | requested _ requested =>
    obtain ⟨type, udpSend, srcs, udpSrcs, keeps⟩ := samePeers_requested requested
    exact ⟨type, udpSend, srcs, udpSrcs, keeps⟩
  | @emit r buf m _ _ _ requested =>
    obtain ⟨type, udpSend, srcs, udpSrcs, keeps⟩ := samePeers_requested requested
    have called := calls n r (c := .emit buf) nofun nofun
    exact ⟨type, udpSend, srcs, udpSrcs, fun old => (called.keeps old).trans (keeps old)⟩
  | own _ _ requested => exact samePeers_requested requested
  | respond _ _ | stopped _ _ _ _ | repeated _ _ | drop _ | packet _ =>
    exact ⟨rfl, rfl, rfl, rfl, fun _ _ _ => id⟩
  | @data k r buf strand _ _ _ _ =>
    exact ⟨rfl, rfl, rfl, rfl, (calls n r (c := .sendData buf) nofun nofun).keeps⟩
  | @begin r strand _ _ =>
    exact ⟨rfl, rfl, rfl, rfl, (calls n r (c := .begin n.session) nofun nofun).keeps⟩
  | startRead _ _ _ => exact calls n _ nofun nofun
  | halt _ halts _ =>
    rcases halts with rfl | rfl
    · exact calls n _ nofun nofun
    · exact calls n _ nofun nofun
  | makeTcp | makeUdp => exact samePeers_make n _
  | orphanUdp => exact samePeers_make n _
  | datagram | reply => exact calls n _ nofun nofun

theorem Delivers.parts (delivers : Delivers n) (wf : WellFormed n) (parts : Parts n m) :
    Delivers m := by
  suffices both : WellFormed m ∧ Delivers m from both.2
  induction parts with
  | refl => exact ⟨wf, delivers⟩
  | tail _ part ih =>
    obtain ⟨wf', there⟩ := ih
    exact ⟨wellFormed_part wf' part, there.same wf' (samePeers_part part)⟩

/-- Only the time of a source changes. -/
theorem Delivers.setTimeout (delivers : Delivers n) (src : Endpoint) (timeout : Nat) :
    Delivers { n with srcs := n.srcs.insert src { n.source src with timeout } } := by
  -- an entry with a session was there with it
  have before {e : Endpoint} {entry : UdpTimeout}
      (found : (n.srcs.insert src { n.source src with timeout }).lookup e = some entry)
      (nonzero : entry.session ≠ 0) :
      ∃ old, n.srcs.lookup e = some old ∧ old.session = entry.session := by
    rw [Map.lookup_insert] at found
    split at found
    · rename_i same
      cases found
      cases old : n.srcs.lookup src with
      | none =>
        unfold source at nonzero
        rw [old] at nonzero
        exact absurd rfl nonzero
      | some entry =>
        rw [same]
        exact ⟨entry, old, by rw [source_of_lookup old]⟩
    · exact ⟨entry, found, rfl⟩
  refine ⟨delivers.transparent, delivers.current, fun {e entry} found nonzero => ?_,
    fun {e e' entry entry'} found found' same nonzero => ?_, fun {s e} there other => ?_⟩
  · obtain ⟨old, was, same⟩ := before found nonzero
    have reaches := delivers.reaches was (same ▸ nonzero)
    exact same ▸ reaches
  · obtain ⟨old, was, session⟩ := before found nonzero
    obtain ⟨old', was', session'⟩ := before found' (same ▸ nonzero)
    exact delivers.distinct was was' (by rw [session, session', same]) (session ▸ nonzero)
  · obtain ⟨nonzero, entry, found, same⟩ := delivers.back there other
    refine ⟨nonzero, ?_⟩
    rcases eq_or_ne e src with rfl | different
    · refine ⟨{ entry with timeout }, ?_, same⟩
      rw [source_of_lookup found]
      exact Map.lookup_insert_self
    · refine ⟨entry, ?_, same⟩
      exact Map.lookup_insert.trans ((if_neg different).trans found)

/-- The tables without a live source. -/
theorem Delivers.of_noSession (delivers : Delivers n) (none : n.NoSession)
    (transparent : m.type = .localTransparent) (current : ∃ u, m.udpSend = some u)
    (srcs : m.srcs = n.srcs) (udpSrcs : m.udpSrcs = n.udpSrcs) : Delivers m := by
  have zero {src : Endpoint} {entry : UdpTimeout} (found : m.srcs.lookup src = some entry) :
      entry.session = 0 := none entry (Map.mem_values.mpr ⟨src, srcs ▸ found⟩)
  refine ⟨transparent, current, fun found nonzero => absurd (zero found) nonzero,
    fun found _ _ nonzero => absurd (zero found) nonzero, fun there other => ?_⟩
  rw [srcs]
  exact delivers.back (udpSrcs ▸ there) other

/-- `start_local_udp`, when it makes a relay. -/
theorem current_startLocalUdp {throws : Throws} (made : throws.newUdp = false) :
    (n.startLocalUdp throws).Both fun m => m.udpSend = some n.next := by
  unfold startLocalUdp startRawUdp
  rw [if_neg (made ▸ nofun)]
  simp only
  split <;> exact rfl

theorem delivers_localTransparentSendUdp (wf : WellFormed n) (delivers : Delivers n)
    {throws : Throws} {buf : Frame} (meets : n.udpSendStopped → throws.newUdp ∨ n.NoSession) :
    (n.localTransparentSendUdp throws buf).Both Delivers := by
  have sends {m : Node} (wf : WellFormed m) (delivers : Delivers m) :
      Delivers (m.callUdpSend (.sendData buf)) := by
    obtain ⟨u, current⟩ := delivers.current
    rw [callUdpSend_of_some current]
    exact delivers.same wf (samePeers_call m u nofun nofun)
  have parts := allParts_restartUdp n throws
  unfold localTransparentSendUdp restartUdp at *
  split at parts
  · rename_i stopped
    rw [if_pos stopped]
    cases making : throws.newUdp with
    | true =>
      have failed : n.startLocalUdp throws = .error n := by
        unfold startLocalUdp startRawUdp
        exact if_pos making
      rw [failed]
      exact delivers
    | false =>
      have none : n.NoSession := (meets stopped).resolve_left (making ▸ nofun)
      have current := current_startLocalUdp (n := n) making
      have quiet := quiet_startLocalUdp n throws
      have restarted : (n.startLocalUdp throws).Both fun m => WellFormed m ∧ Delivers m :=
        ⟨wellFormed_allParts wf parts, delivers.of_noSession none
          (Eq.trans quiet.type delivers.transparent) ⟨_, current⟩ quiet.srcs quiet.udpSrcs⟩
      exact restarted.andThen_of (fun _ both => both.2) fun m both => sends both.1 both.2
  · rename_i going
    rw [if_neg going]
    exact sends wf delivers

theorem delivers_touchSource (delivers : Delivers n) (session : UInt32) :
    Delivers (n.touchSource session) := by
  have touched := delivers.setTimeout ((n.udpSrcs.lookup session).getD default) timeoutTicks
  refine ⟨touched.transparent, touched.current, touched.reaches, touched.distinct,
    fun {s e} there other => touched.back ?_ other⟩
  replace there : (if session ∈ n.udpSrcs then n.udpSrcs
    else n.udpSrcs.insert session default).lookup s = some e := there
  split at there
  · exact there
  · rw [Map.lookup_insert] at there
    split at there
    · cases there
      exact absurd rfl other
    · exact there

theorem delivers_addResponse (wf : WellFormed n) (delivers : Delivers n) {throws : Throws}
    {r : RelayId} {buf : Frame} {strand : List ManagerTask}
    (queue : n.strand = .addResponse r buf :: strand)
    (meets : n.PeersMeetTask throws (.addResponse r buf)) :
    (addResponse { n with strand } throws r buf).Both Delivers := by
  have respond (other : buf.cmd ≠ .dataTcp) : Part n (n.respond r buf strand) :=
    .respond queue fun data => absurd data other
  have answering : (n.respond r buf strand).Answering buf := ⟨r, List.getLast?_concat⟩
  unfold addResponse
  simp only
  split
  · rename_i data
    exact (parts_responseDataTcp wf queue data).mono fun _ => delivers.parts wf
  · rename_i data
    have part := respond (data ▸ nofun)
    have delivers' := delivers.same wf (samePeers_part part)
    split
    · exact (delivers_localTransparentSendUdp (wellFormed_part wf part) delivers'
        (meets data)).andThen fun m delivers => delivers_touchSource delivers buf.session
    · rename_i remote
      exact absurd (remote.symm.trans delivers.transparent) nofun
    · exact delivers'
  · rename_i start
    have part := respond (start ▸ nofun)
    exact (parts_remoteServerStartTcp (wellFormed_part wf part) answering start).mono
      fun _ parts => delivers.parts wf (.head part parts)
  · rename_i stop
    have part := respond (stop ▸ nofun)
    exact delivers.parts wf (.head part (parts_responseStopTcp (wellFormed_part wf part) buf))
  · rename_i data _ _ _
    exact delivers.same wf (samePeers_part (respond data))

theorem noSession_iff : n.NoSession ↔
    ∀ src entry, n.srcs.lookup src = some entry → entry.session = 0 := by
  constructor
  · intro none src entry found
    exact none entry (Map.mem_values.mpr ⟨src, found⟩)
  · intro none entry member
    obtain ⟨src, found⟩ := Map.mem_values.mp member
    exact none src entry found

/-- A new source gets its session and its peer. -/
theorem delivers_newSource (wf : WellFormed n) (delivers : Delivers n) {throws : Throws}
    {src : Endpoint} {old : UdpTimeout} (first : n.FirstPacket src)
    (runs : ¬ n.UdpThrows throws) (kept : n.udpSendStopped → n.NoSession)
    (nonzero : n.session + 1 ≠ 0)
    (unused : ∀ entry ∈ n.srcs.values, entry.session ≠ n.session + 1) :
    (n.newSource throws src old).Both Delivers := by
  have runs' : ¬ (n.assignSession src old).UdpThrows throws := runs
  obtain ⟨m, ended⟩ := restartUdp_ok runs'
  have wf' : WellFormed (n.assignSession src old) := wellFormed_udpPart wf .assign
  have quiet := quiet_restartUdp (n.assignSession src old) throws
  have parts := allParts_restartUdp (n.assignSession src old) throws
  -- the relay that gets the new peer has those of the live sources
  have peers : (n.assignSession src old).restartUdp throws |>.Both fun m =>
      ∃ u, m.udpSend = some u ∧ ∀ {e entry}, n.srcs.lookup e = some entry → entry.session ≠ 0 →
        (m.objs u).drain.udp.peers.lookup entry.session = some e := by
    unfold restartUdp
    split
    · rename_i stopped
      have none := noSession_iff.mp (kept stopped)
      have making : throws.newUdp = false :=
        Bool.eq_false_iff.mpr fun throwing => runs ⟨stopped, .inl throwing⟩
      exact (current_startLocalUdp making).mono fun _ current =>
        ⟨_, current, fun found nonzero => absurd (none _ _ found) nonzero⟩
    · obtain ⟨u, current⟩ := delivers.current
      refine ⟨u, current, fun found nonzero => ?_⟩
      obtain ⟨u', current', there⟩ := delivers.reaches found nonzero
      cases current.symm.trans current'
      exact there
  unfold newSource
  rw [ended] at quiet parts peers ⊢
  obtain ⟨u, current, there⟩ := peers
  replace current : m.udpSend = some u := current
  have srcs : m.srcs = n.srcs.insert src { old with session := n.session + 1 } := quiet.srcs
  have udpSrcs : m.udpSrcs = n.udpSrcs := quiet.udpSrcs
  have type : m.type = n.type := quiet.type
  have call := callUdpSend_of_some current (.addPeer (n.session + 1) src)
  -- the entry of a source other than the new one
  have oldEntry {e : Endpoint} {entry : UdpTimeout} (other : e ≠ src)
      (found : m.srcs.lookup e = some entry) : n.srcs.lookup e = some entry := by
    rw [srcs, Map.lookup_insert, if_neg other] at found
    exact found
  have newEntry {entry : UdpTimeout} (found : m.srcs.lookup src = some entry) :
      entry.session = n.session + 1 := by
    rw [srcs, Map.lookup_insert_self] at found
    cases found
    rfl
  have apart {e : Endpoint} {entry : UdpTimeout} (found : n.srcs.lookup e = some entry) :
      entry.session ≠ n.session + 1 := unused entry (Map.mem_values.mpr ⟨e, found⟩)
  have after : ((m.call u (.addPeer (n.session + 1) src)).objs u).drain.udp.peers =
      (m.objs u).drain.udp.peers.insert (n.session + 1) src := by
    rw [objs_call, if_pos rfl, Relay.drain_peers, Relay.drain_peers]
    show ((m.objs u).inbox ++ [_]).foldl _ _ = _
    rw [List.foldl_append]
    rfl
  show Delivers (m.addSource (n.session + 1) src)
  unfold addSource
  rw [call]
  refine ⟨type.trans delivers.transparent, ⟨u, current⟩, fun {e entry} found nonzero => ?_,
    fun {e e' entry entry'} found found' same nonzero => ?_, fun {s e} back other => ?_⟩
  · refine ⟨u, current, ?_⟩
    show ((m.call u (.addPeer (n.session + 1) src)).objs u).drain.udp.peers.lookup _ = _
    rw [after, Map.lookup_insert]
    by_cases isNew : e = src
    · subst isNew
      rw [if_pos (newEntry found)]
    · have found := oldEntry isNew found
      rw [if_neg (apart found)]
      exact there found nonzero
  · by_cases isNew : e = src <;> by_cases isNew' : e' = src
    · exact isNew.trans isNew'.symm
    · subst isNew
      exact absurd (same.symm.trans (newEntry found)) (apart (oldEntry isNew' found'))
    · subst isNew'
      exact absurd (same.trans (newEntry found')) (apart (oldEntry isNew found))
    · exact delivers.distinct (oldEntry isNew found) (oldEntry isNew' found') same nonzero
  · have entryOf {s : UInt32} {e : Endpoint} (there : n.udpSrcs.lookup s = some e)
        (other : e ≠ default) : e ≠ src ∧ s ≠ 0 ∧
          ∃ entry, n.srcs.lookup e = some entry ∧ entry.session = s := by
      obtain ⟨nonzero, entry, found, same⟩ := delivers.back there other
      refine ⟨?_, nonzero, entry, found, same⟩
      rintro rfl
      unfold FirstPacket at first
      rw [source_of_lookup found, same] at first
      exact nonzero first
    replace back : (if n.session + 1 ∈ m.udpSrcs then m.udpSrcs
      else m.udpSrcs.insert (n.session + 1) src).lookup s = some e := back
    rw [udpSrcs] at back
    show s ≠ 0 ∧ ∃ entry, m.srcs.lookup e = some entry ∧ entry.session = s
    rw [srcs]
    have kept (there : n.udpSrcs.lookup s = some e) : s ≠ 0 ∧ ∃ entry,
        (n.srcs.insert src { old with session := n.session + 1 }).lookup e = some entry ∧
          entry.session = s := by
      obtain ⟨different, nonzero, entry, found, same⟩ := entryOf there other
      exact ⟨nonzero, entry, Map.lookup_insert.trans ((if_neg different).trans found), same⟩
    split at back
    · exact kept back
    · rw [Map.lookup_insert] at back
      split at back
      · rename_i same
        cases back
        exact ⟨same ▸ nonzero, _, Map.lookup_insert_self, same.symm⟩
      · exact kept back

theorem delivers_forwardUdp (delivers : Delivers n) (wf : WellFormed n) (throws : Throws)
    (src : Endpoint) (buf : Frame) : (n.forwardUdp throws src buf).Both Delivers := by
  have touched := delivers.setTimeout src timeoutTicks
  have wf' := wellFormed_udpPart wf (udpPart_setTimeout wf src timeoutTicks n.udpSrcs)
  refine (requested_addRequest _ throws.newSsl none _).mono fun k ended => ?_
  obtain ⟨m, requested, rfl | ⟨remote, _⟩⟩ := ended
  · exact touched.same wf' (samePeers_requested requested)
  · exact absurd (remote.symm.trans delivers.transparent) nofun

theorem delivers_sendUdpData (wf : WellFormed n) (delivers : Delivers n) {throws : Throws}
    {src : Endpoint} {buf : Frame} (meets : n.PeersMeetTask throws (.sendUdpData src buf)) :
    (n.sendUdpData throws src buf).Both Delivers := by
  unfold sendUdpData
  split
  · rename_i first
    obtain ⟨runs, kept, nonzero, unused⟩ := meets first
    have made : (n.newSource throws src (n.source src)).Both fun m => WellFormed m ∧ Delivers m :=
      ⟨wellFormed_allParts wf (allParts_newSource n throws src (n.source src) wf),
        delivers_newSource wf delivers first runs kept nonzero unused⟩
    exact made.andThen_of (fun _ both => both.2) fun m both =>
      delivers_forwardUdp both.2 both.1 throws src buf
  · exact delivers_forwardUdp delivers wf throws src buf

/-! ## The timer -/

theorem delPeer_peers (n : Node) (u : RelayId) (s : UInt32) :
    ((n.call u (.delPeer s)).objs u).drain.udp.peers =
      if s = 0 then ∅ else (n.objs u).drain.udp.peers.erase s := by
  rw [objs_call, if_pos rfl, Relay.drain_peers, Relay.drain_peers]
  show ((n.objs u).inbox ++ [_]).foldl _ _ = _
  rw [List.foldl_append]
  rfl

/-- A source leaves the tables, with its peer. -/
theorem delivers_expire (delivers : Delivers n) {src : Endpoint} {entry : UdpTimeout}
    (found : n.srcs.lookup src = some entry) (one : entry.session ≠ 0 ∨ n.NoSession) :
    Delivers (callUdpSend
      { n with udpSrcs := n.udpSrcs.erase entry.session, srcs := n.srcs.erase src }
      (.delPeer entry.session)) := by
  obtain ⟨u, current⟩ := delivers.current
  have call : callUdpSend
        { n with udpSrcs := n.udpSrcs.erase entry.session, srcs := n.srcs.erase src }
        (.delPeer entry.session) =
      { n.call u (.delPeer entry.session) with
        udpSrcs := n.udpSrcs.erase entry.session, srcs := n.srcs.erase src } :=
    callUdpSend_of_some (n := { n with
      udpSrcs := n.udpSrcs.erase entry.session, srcs := n.srcs.erase src }) current _
  rw [call]
  refine ⟨delivers.transparent, ⟨u, current⟩, fun {e other} there nonzero => ?_,
    fun there there' => ?_, fun {s e} back notDefault => ?_⟩
  · obtain ⟨different, before⟩ := Map.of_lookup_erase there
    refine ⟨u, current, ?_⟩
    have own : entry.session ≠ 0 := one.resolve_right fun none =>
      nonzero (noSession_iff.mp none _ _ before)
    obtain ⟨u', current', peer⟩ := delivers.reaches before nonzero
    cases current.symm.trans current'
    have apart : other.session ≠ entry.session := fun same =>
      different (delivers.distinct before found same nonzero)
    show ((n.call u (.delPeer entry.session)).objs u).drain.udp.peers.lookup _ = _
    rw [delPeer_peers, if_neg own, Map.lookup_erase, if_neg apart]
    exact peer
  · exact delivers.distinct (Map.of_lookup_erase there).2 (Map.of_lookup_erase there').2
  · obtain ⟨different, before⟩ := Map.of_lookup_erase back
    obtain ⟨nonzero, own, there, same⟩ := delivers.back before notDefault
    refine ⟨nonzero, own, ?_, same⟩
    refine Map.lookup_erase.trans ((if_neg ?_).trans there)
    rintro rfl
    cases found.symm.trans there
    exact different same.symm

theorem delivers_clearSources (delivers : Delivers n) :
    Delivers n.clearSources ∧ n.clearSources.NoSession := by
  obtain ⟨u, current⟩ := delivers.current
  have call : n.clearSources = { n.call u (.delPeer 0) with udpSrcs := ∅, srcs := ∅ } :=
    callUdpSend_of_some (n := { n with udpSrcs := ∅, srcs := ∅ }) current _
  rw [call]
  have empty {src : Endpoint} {entry : UdpTimeout} :
      (∅ : Map Endpoint UdpTimeout).lookup src ≠ some entry := by
    rw [Map.lookup_empty]
    exact nofun
  refine ⟨⟨delivers.transparent, ⟨u, current⟩, fun found => absurd found empty,
    fun found => absurd found empty, fun {s e} back => ?_⟩,
    noSession_iff.mpr fun _ _ found => absurd found empty⟩
  simp only [Map.lookup_empty, reduceCtorEq] at back

theorem delivers_visitSource (delivers : Delivers n) {src : Endpoint} {entry : UdpTimeout}
    (found : n.srcs.lookup src = some entry)
    (one : entry.timeout - 1 = 0 → entry.session ≠ 0 ∨ n.NoSession) :
    Delivers (n.visitSource src entry) := by
  unfold visitSource
  split
  · rename_i last
    exact delivers_expire delivers found (one last)
  · have counted := delivers.setTimeout src (entry.timeout - 1)
    rw [source_of_lookup found] at counted
    exact counted

theorem noSession_visitSource (none : n.NoSession) {src : Endpoint} {entry : UdpTimeout}
    (found : n.srcs.lookup src = some entry) : (n.visitSource src entry).NoSession := by
  have zero := noSession_iff.mp none
  rw [noSession_iff]
  intro e other there
  unfold visitSource at there
  split at there
  · rw [(quiet_callUdpSend _ _).srcs] at there
    exact zero _ _ (Map.of_lookup_erase there).2
  · replace there : (n.srcs.insert src { entry with timeout := entry.timeout - 1 }).lookup e =
      some other := there
    rw [Map.lookup_insert] at there
    split at there
    · cases there
      have same := zero _ _ found
      exact same
    · exact zero _ _ there

theorem delivers_tick (wf : WellFormed n) (delivers : Delivers n) (meets : n.PeersMeetTick) :
    Delivers n.tick := by
  have timed := delivers.parts wf (parts_sslTimeout wf)
  have wfTimed := wellFormed_parts wf (parts_sslTimeout wf)
  have srcs : n.sslTimeout.srcs = n.srcs := (quiet_sslTimeout n).srcs
  have localSide : ¬ (n.sslExpires = true ∧ n.type = .remoteServer) := fun both =>
    absurd (both.2.symm.trans delivers.transparent) nofun
  unfold tick
  rw [if_neg localSide]
  have start : ∃ m, (if n.sslExpires then n.sslTimeout.clearSources else n.sslTimeout) = m ∧
      WellFormed m ∧ Delivers m ∧ (m.NoSession ∨ ∀ src entry,
        m.srcs.lookup src = some entry → entry.session = 0 → entry.timeout - 1 ≠ 0) := by
    refine ⟨_, rfl, ?_⟩
    split
    · obtain ⟨cleared, none⟩ := delivers_clearSources timed
      exact ⟨wellFormed_allParts wfTimed (allParts_clearSources _), cleared, .inl none⟩
    · rename_i lives
      refine ⟨wfTimed, timed, ?_⟩
      rcases meets with expires | none | lasting
      · exact absurd expires lives
      · left
        rw [noSession_iff, srcs]
        exact noSession_iff.mp none
      · right
        rw [srcs]
        exact fun src entry found => lasting entry (Map.mem_values.mpr ⟨src, found⟩)
  obtain ⟨m, same, wfM, delM, one⟩ := start
  rw [same]
  have swept : WellFormed m.sweepSources ∧ Delivers m.sweepSources ∧
      (m.NoSession → m.sweepSources.NoSession) := by
    refine Map.sweep_rule (P := fun k : Node => WellFormed k ∧ Delivers k ∧ (m.NoSession → k.NoSession))
      (fun k : Node => k.srcs) srcs_visitSource_of_ne ⟨wfM, delM, id⟩ ?_
    rintro k src entry ⟨wfK, delK, noneK⟩ first found
    refine ⟨wellFormed_allParts wfK (allParts_visitSource wfK found),
      delivers_visitSource delK found fun last => ?_,
      fun none => noSession_visitSource (noneK none) found⟩
    rcases one with none | lasting
    · exact .inr (noneK none)
    · exact .inl fun zero => lasting src entry first zero last
  have relays : WellFormed m.sweepSources.sweepRelays ∧ Delivers m.sweepSources.sweepRelays := by
    refine Map.sweep_rule (P := fun k : Node => WellFormed k ∧ Delivers k)
      (fun k : Node => k.relays) relays_visitRelay_of_ne ⟨swept.1, swept.2.1⟩ ?_
    rintro k s r ⟨wfK, delK⟩ _ found
    have parts := parts_visitRelay wfK found
    exact ⟨wellFormed_parts wfK parts, delK.parts wfK parts⟩
  unfold endTimer
  split
  · exact relays.2.same relays.1 ⟨rfl, rfl, rfl, rfl, fun _ _ _ => id⟩
  · exact relays.2

theorem delivers_outside {a : NodeAction} (wf : WellFormed n) (delivers : Delivers n)
    (outside : Outside n a m) : Delivers m := by
  cases outside with
  | @accept dst _ =>
    have made := @samePeers_make n (n.newAccepted dst) n.relays
    exact delivers.same wf ⟨rfl, rfl, rfl, rfl, made.keeps⟩
  | udpPacket _ | release => exact delivers.same wf ⟨rfl, rfl, rfl, rfl, fun _ _ _ => id⟩
  | @relay r ev relay outs _ handled =>
    refine delivers.same wf ⟨rfl, rfl, rfl, rfl, fun {u} _ => ?_⟩
    show Relay.Keeps (n.objs u) (Function.update n.objs r relay u)
    rw [Function.update_apply]
    split
    · rename_i same
      obtain ⟨h, done, rfl⟩ := Relay.step_eq_some.mp handled
      rw [same]
      exact (Relay.handles_of_handle done).keeps
    · exact fun _ _ => id

/-- **One step** under the condition keeps the peers of the live sources. -/
theorem delivers_step {a : NodeAction} (wf : WellFormed n) (delivers : Delivers n)
    (meets : n.PeersMeet a) (stepped : n.step a = some m) : Delivers m := by
  cases stepIs_of_step stepped with
  | accept localSide => exact delivers_outside wf delivers (.accept localSide)
  | udpPacket localSide => exact delivers_outside wf delivers (.udpPacket localSide)
  | release _ => exact delivers_outside wf delivers .release
  | relay known handled =>
    exact delivers_outside wf delivers (.relay (wf.callable_of_step known handled) handled)
  | tick _ => exact delivers_tick wf delivers meets
  | @manager throws task strand queue =>
    have meets : n.PeersMeetTask throws task := meets task (by rw [queue]; rfl)
    have wf' := wf.pop queue
    show (runTask { n with strand } throws task).Both Delivers
    cases task with
    | addRequest relay buf =>
      have asked := @parts_addRequest _ wf' throws.newSsl (some relay) buf n (.requested queue)
      exact asked.mono fun _ => delivers.parts wf
    | addResponse relay buf => exact delivers_addResponse wf delivers queue meets
    | addLocalRawTcp relay =>
      exact (parts_addLocalRawTcp wf queue).mono fun _ => delivers.parts wf
    | sendUdpData src buf =>
      have delivers' : Delivers { n with strand } :=
        delivers.same wf ⟨rfl, rfl, rfl, rfl, fun _ _ _ => id⟩
      exact delivers_sendUdpData wf' delivers' meets

theorem delivers_initLocal : Delivers (initLocal .localTransparent) where
  transparent := rfl
  current := ⟨0, rfl⟩
  reaches found := by simp only [initLocal, Map.lookup_empty, reduceCtorEq] at found
  distinct found := by simp only [initLocal, Map.lookup_empty, reduceCtorEq] at found
  back there := by simp only [initLocal, Map.lookup_empty, reduceCtorEq] at there

/-- **UDP replies reach their client** in every state reached under the condition: a
session created for a source has that source for its peer in `_udp_send`, once the
posted handlers have run, and a reply of the session goes there and nowhere else. A reply
that names an IPv4 endpoint does not go, as the bind of the socket throws. -/
theorem udpPeers_reach (run : Reach step PeersMeet (initLocal .localTransparent) n)
    {session : UInt32} {src : Endpoint} (created : n.Created session src) :
    ∃ u, n.udpSend = some u ∧ (n.objs u).drain.udp.peers.lookup session = some src ∧
      ∀ {buf}, buf.session = session →
        (∀ done r dst, (n.objs u).drain.getSendDataAddr buf done = .ok (r, dst) → dst = src) ∧
        ((getDataAddr buf.payload).addr.isV6 →
          ∃ r, (n.objs u).drain.getSendDataAddr buf 5 = .ok (r, src)) := by
  have both : WellFormed n ∧ Delivers n := by
    refine run.invariant (P := fun n => WellFormed n ∧ Delivers n)
      ⟨wellFormed_initLocal _, delivers_initLocal⟩ fun _ holds meets stepped => ?_
    exact ⟨wellFormed_step holds.1 stepped, delivers_step holds.1 holds.2 meets stepped⟩
  obtain ⟨wf, delivers⟩ := both
  obtain ⟨live, created⟩ := created
  have own : session ≠ 0 ∧ ∃ entry, n.srcs.lookup src = some entry ∧ entry.session = session := by
    rcases created with sent | own
    · exact delivers.back live sent
    · exact own
  obtain ⟨nonzero, entry, found, rfl⟩ := own
  obtain ⟨u, current, there⟩ := delivers.reaches found nonzero
  refine ⟨u, current, there, fun same => ?_⟩
  have transparent : (n.objs u).drain.type = .localTransparent :=
    (Relay.drain_type _).trans ((wf.type (wf.udpSend current).1).trans delivers.transparent)
  exact Relay.getSendDataAddr_peer transparent (same ▸ there)

/-- A first packet is handled, `_udp_send` starts and the timer runs. -/
theorem udpPeers_reach_packet :
    ∃ n, Reachable step (initLocal .localTransparent) n ∧
      ∃ u, n.udpSend = some u ∧
        (n.objs u).drain.udp.peers.lookup 2 = some ⟨.v4 #v[10, 0, 0, 1], 5000⟩ := by
  have run := @Reach.of_isSome _ _ step PeersMeet (initLocal .localTransparent) _
    [.udpPacket ⟨.v4 #v[10, 0, 0, 1], 5000⟩ (some ⟨.v4 #v[8, 8, 8, 8], 53⟩) (some [1]),
      .manager {}, .relay 0 .task, .tick] (by decide +kernel)
  obtain ⟨u, current, there, _⟩ := @udpPeers_reach _ run 2 ⟨.v4 #v[10, 0, 0, 1], 5000⟩
    (by decide +kernel)
  exact ⟨_, run.reachable, u, current, there⟩

/-- A reply for the first source. -/
def firstReply : Frame := ⟨2, .dataUdp, udpHead (some (.mapped 8 8 8 8 53)) ++ [7]⟩

/-- The send of a reply fails, and then a second source sends its first packet. -/
def sendErrorRun : List NodeAction :=
  [.udpPacket (.ipv4 10 0 0 1 5000) (some (.ipv4 8 8 8 8 53)) (some [1]),
    .manager {}, .relay 0 .task, .relay 0 .task, .relay 1 (.startup true),
    .relay 1 (.startup true), .relay 1 (.startup true),
    .relay 1 (.arrive (.stream firstReply.head.bytes)), .relay 1 .read,
    .relay 1 (.arrive (.stream firstReply.payload)), .relay 1 .read, .manager {},
    .relay 0 .task, .relay 0 (.startSend 5), .relay 0 .sendError,
    .udpPacket (.ipv4 10 0 0 2 6000) (some (.ipv4 8 8 8 8 53)) (some [1]), .manager {}]

/-- **A send error takes the replies of a live session away**: `_udp_send` stops, the
next first packet replaces it, and the peer of the first source is gone. -/
theorem udpPeers_sendError :
    ∃ n, Reachable step (initLocal .localTransparent) n ∧
      n.Created 2 ⟨.v4 #v[10, 0, 0, 1], 5000⟩ ∧
      n.srcs.lookup ⟨.v4 #v[10, 0, 0, 1], 5000⟩ = some ⟨2, timeoutTicks⟩ ∧
      ¬ n.Reaches 2 ⟨.v4 #v[10, 0, 0, 1], 5000⟩ := by
  refine ⟨_, .of_isSome sendErrorRun (by decide +kernel), by decide +kernel,
    by decide +kernel, ?_⟩
  rintro ⟨u, current, there⟩
  have replaced : some u = some 2 := current.symm.trans (by decide +kernel)
  cases replaced
  exact absurd there (by decide +kernel)

end Node

end SslSocks
