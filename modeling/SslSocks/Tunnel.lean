import SslSocks.Dealings
import SslSocks.StreamIntegrity

/-!
# What comes out of the tunnel went into it

A relay may drop messages: `send_data` does when the relay is stopped. It does nothing else
to them, and so it is with a whole connection: whatever fails and whatever is revived, the
messages that one manager handles are, in order, some of those that the other gave to its ssl
relay (`tunnel_sublist`), and the bytes that the raw_tcps at either end write are those of
such messages, each of which goes to one raw_tcp (`bytes_relayed`). Nothing is
assumed of the run.
-/

namespace SslSocks

open Lib

namespace Relay

variable {r r' : Relay} {alive : Bool} {ev : RelayEvent} {outs : List RelayOut}

/-- A handler pushes the first message posted, or drops it, or leaves the messages. -/
theorem Handles.queued (handled : Handles alive r ev r' outs) :
    (r'.log.accepted ++ r'.posted).Sublist (r.log.accepted ++ r.posted) := by
  have kept {a : Relay} (inbox : a.inbox = r.inbox) (accepted : a.log.accepted = r.log.accepted) :
      (a.log.accepted ++ a.posted).Sublist (r.log.accepted ++ r.posted) := by
    unfold posted
    rw [inbox, accepted]
  have popped {task : RelayTask} {inbox : List RelayTask} {a : Relay}
      (queue : r.inbox = task :: inbox) (isInbox : a.inbox = inbox)
      (accepted : a.log.accepted = r.log.accepted) :
      (a.log.accepted ++ a.posted).Sublist (r.log.accepted ++ r.posted) := by
    unfold Relay.posted
    rw [isInbox, accepted, queue]
    exact (List.Sublist.filterMap _ (List.sublist_cons_self _ _)).append_left _
  have stop (a : Relay) : a.stopHere.inbox = a.inbox ∧ a.stopHere.log.accepted = a.log.accepted :=
    ⟨(keepsStartup_stopHere a).inbox, (sameQueue_stopHere a).accepted⟩
  cases handled with
  | dropped queue => exact popped queue rfl rfl
  | @pushed buf inbox queue =>
    have same : (r.log.accepted ++ [buf]) ++ inbox.filterMap RelayTask.message =
        r.log.accepted ++ r.posted := by
      rw [posted_cons queue, List.append_assoc]
      rfl
    exact same ▸ List.Sublist.refl _
  | @stopTask inbox queue =>
    have frame : (Relay.stopTask { r with inbox }).inbox = inbox ∧
        (Relay.stopTask { r with inbox }).log.accepted = r.log.accepted := by
      rcases stopTask_cases { r with inbox } with ⟨_, same⟩ | ⟨bound, same⟩ <;> rw [same] <;>
        exact ⟨rfl, rfl⟩
    exact popped queue frame.1 frame.2
  | startInit queue | addPeer queue | delPeer queue => exact popped queue rfl rfl
  | startSend _ _ loop | sent _ loop => exact kept loop.keepsStartup.inbox loop.accepted
  | sendError | readThrew | readError | startupThrew | requestBad | directFailed =>
    exact kept (stop _).1 (stop _).2
  | _ => exact kept rfl rfl

theorem Calls.queued {c : RelayCall} (called : Calls r c r')
    (before : (r.log.accepted ++ r.posted).Sublist r.log.given) :
    (r'.log.accepted ++ r'.posted).Sublist r'.log.given := by
  have more {a : Relay} (tasks : List RelayTask) (frames : List Frame)
      (inbox : a.inbox = r.inbox ++ tasks) (messages : tasks.filterMap RelayTask.message = frames)
      (accepted : a.log.accepted = r.log.accepted) (given : a.log.given = r.log.given ++ frames) :
      (a.log.accepted ++ a.posted).Sublist a.log.given := by
    unfold posted at before ⊢
    rw [accepted, inbox, List.filterMap_append, messages, given, ← List.append_assoc]
    exact before.append_right _
  cases called with
  | @sendData buf => exact more [.sendData buf] [buf] rfl rfl rfl rfl
  | stopRaw => exact more [.stopRelay] [] rfl rfl rfl (List.append_nil _).symm
  | stopSsl | count | emit | begin =>
    exact more [] [] (List.append_nil _).symm rfl rfl (List.append_nil _).symm
  | @addPeer s peer => exact more [.addPeer s peer] [] rfl rfl rfl (List.append_nil _).symm
  | @delPeer s => exact more [.delPeer s] [] rfl rfl rfl (List.append_nil _).symm
  | startRead | startUdpRemote | startUdpLocal =>
    exact more [.startInit] [] rfl rfl rfl (List.append_nil _).symm

/-- **A relay only drops messages**: those that it pushed, and those still posted, are in order
some of those that it was given. -/
theorem Lives.queued_given (lives : r.Lives) :
    (r.log.accepted ++ r.posted).Sublist r.log.given := by
  refine lives.invariant (P := fun r => (r.log.accepted ++ r.posted).Sublist r.log.given)
    (fun born => ?_) (fun _ before _ called => called.queued before) fun _ before handled => ?_
  · unfold posted
    rw [born.inbox, born.log]
    exact List.Sublist.refl _
  · have given := handled.sameCalls.given
    exact given ▸ handled.queued.trans before

theorem Lives.accepted_given (lives : r.Lives) : r.log.accepted.Sublist r.log.given :=
  (List.sublist_append_left _ _).trans lives.queued_given

/-- What a raw_tcp wrote are payloads of messages that it was given. -/
theorem Lives.wrote_given (lives : r.Lives) (tcp : r.kind = .rawTcp) :
    ∃ took : List Frame, took.Sublist r.log.given ∧ r.log.written <+: took.flatMap Frame.payload := by
  have stream : r.kind ≠ .rawUdp := by
    rw [tcp]
    decide
  have text : r.text = Frame.payload := by
    funext buf
    refine if_neg ?_
    rw [tcp]
    decide
  have written := lives.written_pushed stream
  rw [text] at written
  exact ⟨r.log.accepted, lives.accepted_given, written⟩

end Relay

namespace Node

/-- What an ssl relay pushed was asked of it. -/
theorem pushed_requests {C : Node → NodeAction → Prop} {n₀ n : Node} (starts : Starts n₀)
    (run : Reach step C n₀ n) {k : RelayId} (known : k < n.next) (ssl : (n.objs k).kind = .ssl) :
    (n.objs k).log.accepted.Sublist (n.requestsTo k) := by
  obtain ⟨_, ledger, live⟩ := starts.sound run
  rw [← ledger.given k (.inr ssl)]
  exact (live k known).accepted_given

/-- What a relay wrote are the payloads of some of the messages dealt to it, in order, and the
first bytes of one more; all of them are of its session. -/
structure Wrote (n : Node) (deals : List Deal) (r : RelayId) : Prop where
  own : ∀ buf ∈ deals.filterMap (Deal.dealtTo r), buf.session = (n.objs r).session
  bytes : ∃ took : List Frame, took.Sublist (deals.filterMap (Deal.dealtTo r)) ∧
    (n.objs r).log.written <+: took.flatMap Frame.payload

theorem Divides.wrote {C : Node → NodeAction → Prop} {n₀ n : Node} (starts : Starts n₀)
    (run : Reach step C n₀ n) {deals : List Deal} (divides : Divides n deals) {r : RelayId}
    (known : r < n.next) (tcp : (n.objs r).kind = .rawTcp) : Wrote n deals r := by
  have raw : n.Raw r := ⟨known, by rw [tcp]; decide⟩
  have given := divides.given raw
  constructor <;> rw [← given]
  · intro buf there
    exact (routed_reach starts run r known (.inl tcp) buf there).1
  · exact ((starts.sound run).live r known).wrote_given tcp

end Node

namespace System

variable {C : System → SystemAction → Prop} {y : System} {type : ServerType} {k : RelayId}

section Tunnel

variable (localSide : type ≠ .remoteServer) (run : Reach step C (init type) y)

include localSide run

/-! ## Messages -/

theorem delivered_sublist_down (k : RelayId) :
    ((y.rem k).objs 0).log.delivered.Sublist (y.loc.requestsTo k) := by
  have starts : Node.Starts (.initLocal type) := .localSide localSide
  have joined := joined_reach localSide run
  by_cases connected : k < y.loc.next ∧ (y.loc.objs k).kind = .ssl
  · obtain ⟨known, ssl⟩ := connected
    refine List.Sublist.trans ?_ (Node.pushed_requests starts joined.loc known ssl)
    apply List.IsPrefix.sublist
    apply joined.delivered_down k fun _ _ => ?_
    · exact fun buf there => (Node.accepted_fit starts joined.loc known ssl there).1
    · exact ((joined.soundLoc localSide).live k known).written_encodes ssl
  · have nothing : ((y.rem k).objs 0).log.delivered <+: [] := by
      apply joined.delivered_down k fun known ssl => absurd ⟨known, ssl⟩ connected
      exact fun _ there => absurd there List.not_mem_nil
    rw [List.prefix_nil.mp nothing]
    exact List.nil_sublist _

theorem delivered_sublist_up (known : k < y.loc.next) (ssl : (y.loc.objs k).kind = .ssl) :
    (y.loc.objs k).log.delivered.Sublist ((y.rem k).requestsTo 0) := by
  have joined := joined_reach localSide run
  obtain ⟨first, isSsl⟩ := joined.rem_ssl k
  refine List.Sublist.trans ?_ (Node.pushed_requests .remote (joined.rem k) first isSsl)
  apply List.IsPrefix.sublist
  apply joined.delivered_up localSide known ssl
  · exact ((joined.soundRem k).live 0 first).written_encodes isSsl
  · exact fun buf there => (Node.accepted_fit .remote (joined.rem k) first isSsl there).1

/-- What a remote manager has handled. -/
theorem handled_down_sublist (k : RelayId) : (y.rem k).handled.Sublist (y.loc.requestsTo k) := by
  have joined := joined_reach localSide run
  obtain ⟨_, ledger, live⟩ := joined.soundRem k
  have handled : (y.rem k).handled = (y.rem k).answersOf 0 :=
    Node.handled_answersOf ledger live fun j known ssl => Node.remote_ssl (joined.rem k) known ssl
  refine List.Sublist.trans ?_ (delivered_sublist_down localSide run k)
  rw [handled, ← ledger.answered 0]
  exact List.sublist_append_left _ _

theorem answers_up_sublist (k : RelayId) :
    (y.loc.answersOf k).Sublist ((y.rem k).requestsTo 0) := by
  obtain ⟨_, ledger, live⟩ := (joined_reach localSide run).soundLoc localSide
  cases answers : y.loc.answersOf k with
  | nil => exact List.nil_sublist _
  | cons buf rest =>
    have there : buf ∈ y.loc.answersOf k ++ y.loc.responsesOf k := by
      rw [answers]
      exact List.mem_cons_self
    obtain ⟨known, ssl, _⟩ := Node.delivered_of_answer ledger live there
    refine List.Sublist.trans ?_ (delivered_sublist_up localSide run known ssl)
    rw [← answers, ← ledger.answered k]
    exact List.sublist_append_left _ _

end Tunnel

/-- **The tunnel only drops messages.** In every run of a local manager and the managers that
it connects to, what each side has handled of a connection is, in order, some of what the other
side gave to its ssl relay: nothing is made up, changed, repeated or put before another. -/
theorem tunnel_sublist (localSide : type ≠ .remoteServer) (run : Reach step C (init type) y)
    (k : RelayId) : (y.rem k).handled.Sublist (y.loc.requestsTo k) ∧
      (y.loc.answersOf k).Sublist ((y.rem k).requestsTo 0) :=
  ⟨handled_down_sublist localSide run k, answers_up_sublist localSide run k⟩

/-! ## Bytes -/

/-- **What the raw_tcps write.** The messages that a remote manager handled, which are in order
some of those that the local side asked of the ssl relay, can be divided among its raw_tcps, so
that each of them wrote bytes of its own messages only. The messages that the local side handled,
from any number of ssl relays, can be divided among its raw_tcps in the same way. -/
theorem bytes_relayed (localSide : type ≠ .remoteServer) (run : Reach step C (init type) y) :
    (∀ k, ∃ deals : List Node.Deal, deals.map Node.Deal.buf = (y.rem k).handled ∧
      (deals.map Node.Deal.buf).Sublist (y.loc.requestsTo k) ∧
      ∀ {r}, r < (y.rem k).next → ((y.rem k).objs r).kind = .rawTcp →
        Node.Wrote (y.rem k) deals r) ∧
    ∃ deals : List Node.Deal,
      (∀ k, deals.filterMap (Node.Deal.cameBy k) = y.loc.answersOf k ∧
        (deals.filterMap (Node.Deal.cameBy k)).Sublist ((y.rem k).requestsTo 0)) ∧
      deals.map Node.Deal.answer = y.loc.answered ∧
      ∀ {r}, r < y.loc.next → (y.loc.objs r).kind = .rawTcp → Node.Wrote y.loc deals r := by
  have starts : Node.Starts (.initLocal type) := .localSide localSide
  have joined := joined_reach localSide run
  constructor
  · intro k
    obtain ⟨deals, divides⟩ := Node.exists_divides .remote (joined.rem k)
    refine ⟨deals, divides.handled, ?_, fun known tcp => divides.wrote .remote (joined.rem k) known tcp⟩
    rw [divides.handled]
    exact handled_down_sublist localSide run k
  · obtain ⟨deals, divides⟩ := Node.exists_divides starts joined.loc
    refine ⟨deals, fun k => ⟨divides.answersOf k, ?_⟩, divides.answered,
      fun known tcp => divides.wrote starts joined.loc known tcp⟩
    rw [divides.answersOf k]
    exact answers_up_sublist localSide run k

/-! ## Runs -/

/-- A session and one byte of its data go through, another byte is dropped on the way. -/
def dropsOne : List SystemAction :=
  connection ++ expiry ++ connectSsl 2 0 ++ carry 2 (opening 1) ++ clientSends [8] ++ passes ++
    carry 2 ⟨1, .dataTcp, [8]⟩ ++ serverGets

theorem tunnel_sublist_drops : ∃ y, Reachable step (init .localTransparent) y ∧
    (y.rem 2).handled = [opening 1, ⟨1, .dataTcp, [8]⟩] ∧
    y.loc.requestsTo 2 = [opening 1, ⟨1, .dataTcp, [7]⟩, ⟨1, .dataTcp, [8]⟩] ∧
    (y.rem 2).handled.Sublist (y.loc.requestsTo 2) := by
  have run := @Reach.of_isSome _ _ step anyStep (init .localTransparent) _ dropsOne
    (by decide +kernel)
  have localSide : ServerType.localTransparent ≠ .remoteServer := by decide
  have kept := tunnel_sublist localSide run 2
  exact ⟨_, run, by decide +kernel, by decide +kernel, kept.1⟩

theorem bytes_relayed_drops : ∃ y, Reachable step (init .localTransparent) y ∧
    ((y.rem 2).objs 1).log.written = [8] ∧
    y.loc.requestsTo 2 = [opening 1, ⟨1, .dataTcp, [7]⟩, ⟨1, .dataTcp, [8]⟩] ∧
    ∃ deals, deals.map Node.Deal.buf = [opening 1, ⟨1, .dataTcp, [8]⟩] ∧
      (deals.map Node.Deal.buf).Sublist (y.loc.requestsTo 2) ∧
      Node.Wrote (y.rem 2) deals 1 := by
  have run := @Reach.of_isSome _ _ step anyStep (init .localTransparent) _ dropsOne
    (by decide +kernel)
  have localSide : ServerType.localTransparent ≠ .remoteServer := by decide
  obtain ⟨deals, handled, asked, wrote⟩ := (bytes_relayed localSide run).1 2
  exact ⟨_, run, by decide +kernel, by decide +kernel, deals, handled.trans (by decide +kernel),
    asked, wrote (by decide +kernel) (by decide +kernel)⟩

end System

end SslSocks
