import SslSocks.NodeRoutes
import SslSocks.RelayStop
import SslSocks.SendOrder
import SslSocks.System

/-!
# What goes through an ssl connection

An ssl relay writes nothing before its handshake and nothing after its shutdown has begun. In
between it writes the messages that it is given in order, but for one case: a relay that is
stopped before its handshake drops messages, and is nevertheless revived when the handshake
completes. `conveys_reach` excludes a revival after a loss (`Node.StreamMeets`): what an ssl
relay wrote then begins the requests that went to it, and these follow each other.
-/

namespace SslSocks

open Lib

namespace Relay

variable {r r' : Relay} {alive : Bool} {ev : RelayEvent} {outs : List RelayOut}

/-! ## The handshake and the shutdown -/

/-- An ssl relay by the handshake: before it nothing is sent, and a stop after it begins the
shutdown. -/
structure SslLife (r : Relay) : Prop where
  tasks : ∀ task ∈ r.inbox, task ≠ .startInit ∧ task ≠ .stopRelay
  early : r.ssl.established = false →
    r.log.written = [] ∧ r.sending = none ∧ (r.state = .uninit ∨ r.state = .stop)
  shut : r.ssl.established = true → r.state = .stop → r.ssl.shut = true

/-- The shutdown has begun. -/
def Dead (r : Relay) : Prop := r.ssl.established = true ∧ r.ssl.shut = true

theorem Born.sslLife (born : r.Born) : SslLife r := by
  refine ⟨fun task there => ?_, fun _ => ⟨?_, born.sending, .inl born.state⟩, fun on => ?_⟩
  · rw [born.inbox] at there
    cases there
  · rw [born.log]
  · rw [born.ssl] at on
    cases on

theorem SslLife.of_same (life : SslLife r) (inbox : ∀ task ∈ r'.inbox, task ∈ r.inbox)
    (established : r'.ssl.established = r.ssl.established) (shut : r'.ssl.shut = r.ssl.shut)
    (written : r'.log.written = r.log.written)
    (sending : r'.sending = r.sending ∨ r'.sending = none) (state : r'.state = r.state) :
    SslLife r' := by
  refine ⟨fun task there => life.tasks task (inbox task there), fun off => ?_,
    fun on stopped => ?_⟩
  · obtain ⟨nothing, idle, early⟩ := life.early (established ▸ off)
    refine ⟨written.trans nothing, ?_, state.symm ▸ early⟩
    rcases sending with same | none
    · exact same.trans idle
    · exact none
  · rw [shut]
    exact life.shut (established ▸ on) (state ▸ stopped)

theorem Calls.sslLife {c : RelayCall} (called : Calls r c r') (proper : r.Proper (.call c))
    (ssl : r.kind = .ssl) (life : SslLife r) : SslLife r' := by
  have posted {task : RelayTask} (other : task ≠ .startInit ∧ task ≠ .stopRelay) :
      ∀ t ∈ r.inbox ++ [task], t ≠ .startInit ∧ t ≠ .stopRelay := by
    intro t there
    rcases List.mem_append.mp there with old | new
    · exact life.tasks t old
    · exact List.mem_singleton.mp new ▸ other
  cases called with
  | sendData | addPeer | delPeer =>
    refine ⟨posted ⟨?_, ?_⟩, life.early, life.shut⟩ <;> intro same <;> cases same
  | stopRaw _ _ raw => exact absurd ssl raw
  | stopSsl | count | begin | emit =>
    exact life.of_same (fun _ there => there) rfl rfl rfl (.inl rfl) rfl
  | startRead => cases proper.1.symm.trans ssl
  | startUdpRemote | startUdpLocal => cases proper.1.symm.trans ssl

/-- The loop of `start_send` runs after the handshake only. -/
theorem SendLoop.sslLife {a : Relay} (loop : SendLoop a r') (ssl : a.kind = .ssl)
    (tasks : ∀ task ∈ a.inbox, task ≠ .startInit ∧ task ≠ .stopRelay)
    (on : a.ssl.established = true)
    (shut : a.state = .stop → a.ssl.shut = true) : SslLife r' := by
  have late {b : Relay} {P : Prop} (is : b.ssl.established = true)
      (off : b.ssl.established = false) : P := by
    cases is.symm.trans off
  cases loop with
  | empty => exact ⟨tasks, late on, fun _ stopped => by cases stopped⟩
  | stopped _ _ => exact ⟨tasks, late on, fun _ => shut⟩
  | stream _ going _ => exact ⟨tasks, late on, fun _ stopped => absurd stopped going⟩
  | datagram _ _ _ _ _ udp | threw _ _ _ _ udp => cases udp.symm.trans ssl

theorem SslLife.established (life : SslLife r) (going : r.state = .init ∨ r.sending ≠ none) :
    r.ssl.established = true := by
  refine Bool.of_not_eq_false fun off => ?_
  obtain ⟨_, idle, early⟩ := life.early off
  rcases going with init | sends
  · rcases early with uninit | stop
    · cases init.symm.trans uninit
    · cases init.symm.trans stop
  · exact sends idle

theorem SslLife.stopHere (life : SslLife r) (ssl : r.kind = .ssl) : SslLife r.stopHere := by
  rcases stopHere_cases r with ⟨_, same⟩ | ⟨raw, _⟩
  · rw [same]
    exact life.of_same (fun _ there => there) rfl rfl rfl (.inl rfl) rfl
  · exact absurd ssl raw

theorem Handles.sslLife (handled : Handles alive r ev r' outs) (ok : KindOk r)
    (ssl : r.kind = .ssl) (life : SslLife r) : SslLife r' := by
  have popped {task : RelayTask} {inbox : List RelayTask} (queue : r.inbox = task :: inbox)
      (t : RelayTask) (there : t ∈ inbox) : t ∈ r.inbox := queue ▸ List.mem_cons_of_mem _ there
  have isLocal (other : r.startup ∉ [.idle, .resolve, .connect, .handshake]) : False := by
    cases (ok.localServer other).1.symm.trans ssl
  have stops {a : Relay} (isSsl : a.kind = .ssl) (same : SslLife a) : SslLife a.stopHere :=
    same.stopHere isSsl
  cases handled with
  | dropped queue | addPeer queue | delPeer queue =>
    exact life.of_same (popped queue) rfl rfl rfl (.inl rfl) rfl
  | pushed queue => exact life.of_same (popped queue) rfl rfl rfl (.inl rfl) rfl
  | startInit queue => exact absurd rfl (life.tasks _ (queue ▸ List.mem_cons_self)).1
  | stopTask queue => exact absurd rfl (life.tasks _ (queue ▸ List.mem_cons_self)).2
  | sslStop =>
    refine ⟨life.tasks, fun off => ?_, fun on _ => ?_⟩
    · obtain ⟨nothing, idle, _⟩ := life.early off
      exact ⟨nothing, idle, .inr rfl⟩
    · replace on : r.ssl.established = true := on
      show (r.ssl.shut || r.ssl.established) = true
      rw [on, Bool.or_true]
  | startSend _ going loop =>
    refine loop.sslLife ssl life.tasks (life.established (.inl going)) fun stopped => ?_
    cases stopped
  | sent done loop =>
    have on : r.ssl.established = true := by
      apply life.established
      right
      rcases done with stream | ⟨dst, window, is⟩
      · rw [stream]
        exact Option.some_ne_none _
      · rw [is]
        exact Option.some_ne_none _
    exact loop.sslLife ssl life.tasks on fun stopped => life.shut on stopped
  | take sends writable =>
    have on : r.ssl.established = true := life.established (.inr (sends ▸ Option.some_ne_none _))
    refine ⟨life.tasks, fun off => ?_, life.shut⟩
    cases on.symm.trans off
  | transmit sends =>
    have on : r.ssl.established = true := life.established (.inr (sends ▸ Option.some_ne_none _))
    refine ⟨life.tasks, fun off => ?_, life.shut⟩
    cases on.symm.trans off
  | sendError => exact stops ssl (life.of_same (fun _ there => there) rfl rfl rfl (.inr rfl) rfl)
  | readThrew | readError | startupThrew =>
    exact stops ssl (life.of_same (fun _ there => there) rfl rfl rfl (.inl rfl) rfl)
  | handshake =>
    refine ⟨life.tasks, fun off => ?_, fun _ stopped => ?_⟩
    · cases off
    · cases stopped
  | greeting startup | greetingReply startup | directResolve startup | directConnect startup
  | okReply startup | requestBad startup | requestBlocked startup | requestDead startup
  | requestDirect startup =>
    refine (isLocal ?_).elim
    rw [startup]
    decide
  | connectRaw _ _ raw => exact absurd ssl raw
  | direct _ _ on | directFailed _ _ on => cases (ok.direct on).1.symm.trans ssl
  | _ => exact life.of_same (fun _ there => there) rfl rfl rfl (.inl rfl) rfl

theorem Lives.sslLife (lives : r.Lives) (ssl : r.kind = .ssl) : SslLife r := by
  revert ssl
  refine lives.invariant (P := fun r => r.kind = .ssl → SslLife r) (fun born _ => born.sslLife)
    (fun {r c r'} _ life proper called ssl => ?_) fun {r alive ev r' outs} lives life handled ssl => ?_
  · have same : r.kind = .ssl := by
      cases called <;> exact ssl
    exact called.sslLife proper same (life same)
  · have same : r.kind = .ssl := handled.sameCalls.kind.symm.trans ssl
    have after := handled.sslLife lives.kindOk same (life same)
    exact after.of_same (fun _ there => there) rfl rfl rfl (.inl rfl) rfl

/-- Once the shutdown has begun nothing is written, and it does not end. -/
theorem Handles.shutDown (handled : Handles alive r ev r' outs) (ok : KindOk r) (ssl : r.kind = .ssl)
    (life : SslLife r) : (r.Dead → r'.Dead) ∧ (r'.Dead → r'.log.written = r.log.written) := by
  have isLocal (other : r.startup ∉ [.idle, .resolve, .connect, .handshake]) : False := by
    cases (ok.localServer other).1.symm.trans ssl
  have stops {a : Relay} (isSsl : a.kind = .ssl) (same : a.ssl = r.ssl)
      (written : a.log.written = r.log.written) :
      (r.Dead → a.stopHere.Dead) ∧ (a.stopHere.Dead → a.stopHere.log.written = r.log.written) := by
    rcases stopHere_cases a with ⟨_, is⟩ | ⟨raw, _⟩
    · rw [is]
      unfold Dead
      rw [← same]
      exact ⟨id, fun _ => written⟩
    · exact absurd isSsl raw
  have loops {a : Relay} (loop : SendLoop a r') (isSsl : a.kind = .ssl) (same : a.ssl = r.ssl)
      (written : a.log.written = r.log.written) :
      (r.Dead → r'.Dead) ∧ (r'.Dead → r'.log.written = r.log.written) := by
    have kept : r'.ssl = a.ssl ∧ r'.log.written = a.log.written := by
      cases loop with
      | datagram _ _ _ _ _ udp | threw _ _ _ _ udp => cases udp.symm.trans isSsl
      | _ => exact ⟨rfl, rfl⟩
    unfold Dead
    rw [kept.1, same]
    exact ⟨id, fun _ => kept.2.trans written⟩
  cases handled with
  | stopTask queue => exact absurd rfl (life.tasks _ (queue ▸ List.mem_cons_self)).2
  | sslStop =>
    refine ⟨fun dead => ⟨dead.1, ?_⟩, fun _ => rfl⟩
    show (r.ssl.shut || r.ssl.established) = true
    rw [dead.2, Bool.true_or]
  | startSend _ _ loop => exact loops loop ssl rfl rfl
  | sent _ loop => exact loops loop ssl rfl rfl
  | take _ writable =>
    refine ⟨id, fun dead => ?_⟩
    have shut : r.ssl.shut = true := dead.2
    unfold Relay.writable at writable
    rw [ssl] at writable
    simp only [shut, Bool.not_true, Bool.and_false, Bool.false_eq_true] at writable
  | sendError | readThrew | readError | startupThrew => exact stops ssl rfl rfl
  | handshake => exact ⟨fun dead => ⟨rfl, dead.2⟩, fun _ => rfl⟩
  | greeting startup | greetingReply startup | directResolve startup | directConnect startup
  | okReply startup | requestBad startup | requestBlocked startup | requestDead startup
  | requestDirect startup =>
    refine (isLocal ?_).elim
    rw [startup]
    decide
  | direct _ _ on | directFailed _ _ on => cases (ok.direct on).1.symm.trans ssl
  | _ => exact ⟨id, fun _ => rfl⟩

/-- A stopped relay stays so, unless its shutdown has begun or its handshake completes. -/
theorem Handles.stopped (handled : Handles alive r ev r' outs) (ok : KindOk r)
    (ssl : r.kind = .ssl) (life : SslLife r) (stopped : r.state = .stop) :
    r'.Dead ∨ r'.state = .stop ∨
      ev = .startup true ∧ r.startup = .handshake ∧ (r.InOrder → r'.InOrder) := by
  have isLocal (other : r.startup ∉ [.idle, .resolve, .connect, .handshake]) : False := by
    cases (ok.localServer other).1.symm.trans ssl
  have frozen := (handled.shutDown ok ssl life).1
  have stays {a : Relay} (isSsl : a.kind = .ssl) (state : a.state = r.state) :
      a.stopHere.state = .stop := by
    rcases stopHere_cases a with ⟨_, is⟩ | ⟨raw, _⟩
    · rw [is]
      exact state.trans stopped
    · exact absurd isSsl raw
  cases handled with
  | startInit queue => exact absurd rfl (life.tasks _ (queue ▸ List.mem_cons_self)).1
  | stopTask queue => exact absurd rfl (life.tasks _ (queue ▸ List.mem_cons_self)).2
  | pushed _ going => exact absurd stopped going
  | startSend _ going => cases stopped.symm.trans going
  | sent done loop =>
    -- a write was under way, so the stop came after the handshake
    have on : r.ssl.established = true := by
      apply life.established
      right
      rcases done with stream | ⟨dst, window, is⟩
      · rw [stream]
        exact Option.some_ne_none _
      · rw [is]
        exact Option.some_ne_none _
    exact .inl (frozen ⟨on, life.shut on stopped⟩)
  | handshake isHandshake => exact .inr (.inr ⟨rfl, isHandshake, id⟩)
  | sslStop => exact .inr (.inl rfl)
  | sendError | readThrew | readError | startupThrew => exact .inr (.inl (stays ssl rfl))
  | greeting startup | greetingReply startup | directResolve startup | directConnect startup
  | okReply startup | requestBad startup | requestBlocked startup | requestDead startup
  | requestDirect startup =>
    refine (isLocal ?_).elim
    rw [startup]
    decide
  | connectRaw _ _ raw => exact absurd ssl raw
  | direct _ _ on | directFailed _ _ on => cases (ok.direct on).1.symm.trans ssl
  | _ => exact .inr (.inl stopped)

/-- A relay that is not stopped has dropped nothing, if that was so before and it has dropped
nothing when its handshake completes. -/
theorem Handles.keepsWhole (handled : Handles alive r ev r' outs) (ok : KindOk r)
    (ssl : r.kind = .ssl) (life : SslLife r) (order : r.state ≠ .stop → r.InOrder)
    (meets : r.state = .stop → ev = .startup true → r.startup = .handshake → r.InOrder) :
    r'.Dead ∨ (r'.state ≠ .stop → r'.InOrder) := by
  by_cases stopped : r.state = .stop
  · refine (handled.stopped ok ssl life stopped).imp id fun next going => ?_
    rcases next with still | ⟨rfl, handshake, keeps⟩
    · exact absurd still going
    · exact keeps (meets stopped rfl handshake)
  · have pushes := handled.pushesInOrder (.inl (order stopped)) fun is => absurd is stopped
    right
    intro going
    exact pushes.resolve_right fun both => going both.1

/-- What an ssl relay that is not dead wrote begins what it was given. -/
theorem Lives.written_whole (lives : r.Lives) (ssl : r.kind = .ssl) (alive : ¬ r.Dead)
    (order : r.state ≠ .stop → r.InOrder) :
    r.log.written <+: frameCode.encodeAll r.log.given := by
  have life := lives.sslLife ssl
  cases established : r.ssl.established with
  | false =>
    rw [(life.early established).1]
    exact List.nil_prefix
  | true =>
    have going : r.state ≠ .stop := fun stopped => alive ⟨established, life.shut established stopped⟩
    have whole : r.log.accepted ++ r.posted = r.log.given := order going
    rw [← whole]
    exact (lives.written_encodes ssl).trans
      (PrefixCode.encodeAll_mono frameCode (List.prefix_append _ _))

/-- The calls of the manager leave an ssl relay's connection alone. -/
structure KeepsWire (r r' : Relay) : Prop where
  state : r'.state = r.state
  dead : r'.Dead ↔ r.Dead
  written : r'.log.written = r.log.written
  order : r.InOrder → r'.InOrder

theorem keepsWire_call (r : Relay) (c : RelayCall) : KeepsWire r (r.call c) := by
  have called := calls_call r c
  refine ⟨call_state r c, ?_, ?_, fun inOrder => ?_⟩
  · generalize r.call c = r' at called
    cases called <;> exact Iff.rfl
  · generalize r.call c = r' at called
    cases called <;> rfl
  · generalize r.call c = r' at called
    unfold InOrder posted at inOrder ⊢
    cases called with
    | @sendData buf =>
      show r.log.accepted ++ (r.inbox ++ [RelayTask.sendData buf]).filterMap RelayTask.message =
        r.log.given ++ [buf]
      rw [List.filterMap_append, ← List.append_assoc, inOrder]
      rfl
    | stopRaw | addPeer | delPeer | startRead | startUdpRemote | startUdpLocal =>
      show r.log.accepted ++ (r.inbox ++ [_]).filterMap RelayTask.message = r.log.given
      rw [List.filterMap_append, ← List.append_assoc, inOrder]
      exact List.append_nil _
    | _ => exact inOrder

end Relay

namespace Node

variable {n m : Node} {k : RelayId} {pre : List Request}

/-! ## The condition -/

/-- An ssl relay that completes its handshake in `RELAY_STOP` has dropped no message, and no
request was lost after the last that it was given. No UDP packet comes. -/
def StreamMeets (n : Node) : NodeAction → Prop
  | .relay k (.startup true) =>
    (n.objs k).kind = .ssl → (n.objs k).state = .stop → (n.objs k).startup = .handshake →
      (n.objs k).InOrder ∧ (n.ssl = some k → ∀ q ∈ n.requests.getLast?, q.ssl = some k)
  | .udpPacket _ _ _ => False
  | _ => True

instance (r : Relay) : Decidable r.InOrder := inferInstanceAs (Decidable (_ = _))

instance (n : Node) : DecidablePred n.StreamMeets
  | .relay _ (.startup true) => inferInstanceAs (Decidable (_ → _ → _ → _ ∧ _))
  | .udpPacket _ _ _ => isFalse id
  | .accept _ | .manager _ | .tick | .release | .relay _ .task | .relay _ .stop
  | .relay _ .closed | .relay _ (.startSend _) | .relay _ (.take _) | .relay _ .transmit
  | .relay _ (.sent _) | .relay _ .sendError | .relay _ (.arrive _) | .relay _ .read
  | .relay _ .readError | .relay _ (.startup false) | .relay _ (.request _)
  | .relay _ (.direct _ _) => isTrue trivial

/-- The requests after `pre` begin with those that went to the ssl relay, as far as it wrote
them; unless its shutdown has begun, these are all, and it has dropped none. -/
structure Conveys (n : Node) (k : RelayId) (pre : List Request) : Prop where
  before : ∀ q ∈ pre, q.ssl ≠ some k
  split : ∃ mid post, n.requests = pre ++ mid ++ post ∧ (∀ q ∈ mid, q.ssl = some k) ∧
    (n.objs k).log.written <+: frameCode.encodeAll (mid.map Request.buf) ∧
    ((n.objs k).Dead ∨
      ((n.objs k).state ≠ .stop → (n.objs k).InOrder) ∧ (∀ q ∈ post, q.ssl ≠ some k) ∧
        (post ≠ [] → n.ssl = some k → (n.objs k).state = .stop))

theorem filterMap_sentTo {qs : List Request} (others : ∀ q ∈ qs, q.ssl ≠ some k) :
    qs.filterMap (Request.sentTo k) = [] :=
  List.filterMap_eq_nil_iff.mpr fun q there => if_neg (others q there)

theorem filterMap_sentTo_all {qs : List Request} (all : ∀ q ∈ qs, q.ssl = some k) :
    qs.filterMap (Request.sentTo k) = qs.map Request.buf := by
  rw [← List.filterMap_eq_map]
  exact List.filterMap_congr fun q there => if_pos (all q there)

/-! ## Requests -/

theorem leftByCalls_wired : LeftByCalls Relay.KeepsWire where
  refl _ := ⟨rfl, Iff.rfl, rfl, id⟩
  trans first second := ⟨second.state.trans first.state, second.dead.trans first.dead,
    second.written.trans first.written, second.order ∘ first.order⟩
  call r c _ := Relay.keepsWire_call r c

/-- What a part asks: nothing, or one request, that goes to the ssl relay which is up, to a
new one, or is lost. -/
inductive AsksOnce (n m : Node) : Prop
  | nothing : m.requests = n.requests → m.ssl = n.ssl → AsksOnce n m
  | sent {k : RelayId} {q : Request} :
    q.ssl = some k → n.ssl = some k → (n.objs k).state ≠ .stop → m.ssl = n.ssl →
    m.requests = n.requests ++ [q] → AsksOnce n m
  | made {q : Request} :
    q.ssl = some n.next → m.ssl = some n.next → m.requests = n.requests ++ [q] → AsksOnce n m
  | lost {q : Request} :
    q.ssl = none → n.sslDown → m.ssl = n.ssl → m.requests = n.requests ++ [q] → AsksOnce n m

theorem Requested.asksOnce {relay : Option RelayId} {buf : Frame}
    (requested : Requested relay buf n m) : AsksOnce n m := by
  cases requested with
  | sent current going => exact .sent rfl current going rfl rfl
  | made => exact .made rfl rfl rfl
  | lost down => exact .lost rfl down rfl rfl

theorem asksOnce_part (part : Part n m) : AsksOnce n m := by
  cases part with
  | requested _ requested =>
    cases requested with
    | sent current going => exact .sent rfl current going rfl rfl
    | made => exact .made rfl rfl rfl
    | lost down => exact .lost rfl down rfl rfl
  | @emit r buf _ _ _ _ requested =>
    cases requested with
    | @sent k current going =>
      rw [objs_call_state] at going
      exact .sent rfl current going rfl rfl
    | made => exact .made rfl rfl rfl
    | lost down =>
      rw [sslDown_call] at down
      exact .lost rfl down rfl rfl
  | own _ _ requested => exact requested.asksOnce
  | _ => exact .nothing rfl rfl

theorem Conveys.part (conveys : Conveys n k pre) (known : k < n.next) (asks : AsksOnce n m)
    (wire : (n.objs k).KeepsWire (m.objs k)) : Conveys m k pre := by
  obtain ⟨before, mid, post, requests, all, written, order⟩ := conveys
  rw [← wire.written] at written
  -- a request that does not go to the relay, or goes there after its shutdown began
  have behind {q : Request} (isNew : m.requests = n.requests ++ [q])
      (other : (n.objs k).Dead ∨
        q.ssl ≠ some k ∧ (m.ssl = some k → (n.objs k).state = .stop)) : Conveys m k pre := by
    refine ⟨before, mid, post ++ [q], ?_, all, written, ?_⟩
    · rw [isNew, requests, List.append_assoc]
    · rcases order with dead | ⟨inOrder, others, _⟩
      · exact .inl (wire.dead.mpr dead)
      · refine other.imp wire.dead.mpr fun ⟨other, cut⟩ =>
          ⟨fun going => ?_, fun a there => ?_, fun _ is => ?_⟩
        · exact wire.order (inOrder (wire.state ▸ going))
        · rcases List.mem_append.mp there with old | new
          · exact others a old
          · rw [List.mem_singleton.mp new]
            exact other
        · exact wire.state.trans (cut is)
  cases asks with
  | nothing same ssl =>
    refine ⟨before, mid, post, same.trans requests, all, written, ?_⟩
    refine order.imp wire.dead.mpr fun ⟨inOrder, others, cut⟩ =>
      ⟨fun going => ?_, others, fun some is => ?_⟩
    · exact wire.order (inOrder (wire.state ▸ going))
    · exact wire.state.trans (cut some (ssl ▸ is))
  | @sent j q isSent current going ssl isNew =>
    by_cases same : j = k
    · subst same
      rcases order with dead | ⟨inOrder, others, cut⟩
      · exact behind isNew (.inl dead)
      · have last : post = [] := by
          by_contra some
          exact going (cut some current)
        subst last
        refine ⟨before, mid ++ [q], [], ?_, fun a there => ?_, ?_, .inr ⟨fun going => ?_, ?_, ?_⟩⟩
        · rw [isNew, requests, List.append_nil, List.append_nil, List.append_assoc]
        · rcases List.mem_append.mp there with old | new
          · exact all a old
          · rw [List.mem_singleton.mp new]
            exact isSent
        · rw [List.map_append, PrefixCode.encodeAll_append]
          exact written.trans (List.prefix_append _ _)
        · exact wire.order (inOrder (wire.state ▸ going))
        · exact fun _ there => absurd there List.not_mem_nil
        · exact fun some => absurd rfl some
    · refine behind isNew (.inr ⟨fun is => ?_, fun is => ?_⟩)
      · exact same (Option.some.inj (isSent.symm.trans is))
      · exact absurd (Option.some.inj (current.symm.trans (ssl.symm.trans is))) same
  | @made q isSent current isNew =>
    have other (is : n.next = k) : False := Nat.lt_irrefl n.next (Nat.lt_of_le_of_lt (Nat.le_of_eq is) known)
    refine behind isNew (.inr ⟨fun is => ?_, fun is => ?_⟩)
    · exact other (Option.some.inj (isSent.symm.trans is))
    · exact (other (Option.some.inj (current.symm.trans is))).elim
  | @lost q isSent down ssl isNew =>
    refine behind isNew (.inr ⟨fun is => ?_, fun is => ?_⟩)
    · cases isSent.symm.trans is
    · unfold sslDown at down
      rw [ssl.symm.trans is] at down
      exact of_decide_eq_true down

theorem conveys_udpPart (conveys : Conveys n k pre) (known : k < n.next) (part : UdpPart n m) :
    Conveys m k pre := by
  apply conveys.part known ?_ (leftByCalls_wired.udpPart part known)
  cases part <;> exact .nothing rfl rfl

/-! ## The handlers of the relay -/

/-- The requests that went to the relay, while it is not dead. -/
theorem given_of_split (ledger : n.Ledger) (ssl : (n.objs k).kind = .ssl)
    (before : ∀ q ∈ pre, q.ssl ≠ some k) {mid post : List Request}
    (requests : n.requests = pre ++ mid ++ post) (all : ∀ q ∈ mid, q.ssl = some k)
    (others : ∀ q ∈ post, q.ssl ≠ some k) :
    (n.objs k).log.given = mid.map Request.buf := by
  rw [ledger.given k (.inr ssl)]
  unfold requestsTo
  rw [requests, List.filterMap_append, List.filterMap_append, filterMap_sentTo before,
    filterMap_sentTo_all all, filterMap_sentTo others, List.append_nil, List.nil_append]

theorem conveys_event (conveys : Conveys n k pre) (ledger : n.Ledger) (lives : (n.objs k).Lives)
    (ssl : (n.objs k).kind = .ssl) {ev : RelayEvent} {relay : Relay} {outs : List RelayOut}
    (meets : n.StreamMeets (.relay k ev))
    (stepped : (n.objs k).step n.alive ev = some (relay, outs)) {strand : List ManagerTask}
    {crashed : Bool} :
    Conveys { n with objs := Function.update n.objs k relay, strand, crashed } k pre := by
  obtain ⟨before, mid, post, requests, all, written, order⟩ := conveys
  have after : relay.Lives := lives.step stepped
  obtain ⟨h, handle, rfl⟩ := Relay.step_eq_some.mp stepped
  have handled := Relay.handles_of_handle handle
  have ok := lives.kindOk
  have life := lives.sslLife ssl
  have isSsl : h.kind = .ssl := handled.sameCalls.kind.trans ssl
  obtain ⟨stays, frozen⟩ := handled.shutDown ok ssl life
  have same : Function.update n.objs k (h.note outs) k = h.note outs := Function.update_self ..
  refine ⟨before, mid, post, requests, all, ?_⟩
  show (Function.update n.objs k (h.note outs) k).log.written <+: _ ∧
    ((Function.update n.objs k (h.note outs) k).Dead ∨
      ((Function.update n.objs k (h.note outs) k).state ≠ .stop →
        (Function.update n.objs k (h.note outs) k).InOrder) ∧ _ ∧
      (_ → _ → (Function.update n.objs k (h.note outs) k).state = .stop))
  rw [same]
  by_cases dead : h.Dead
  · have still : h.log.written = (n.objs k).log.written := frozen dead
    exact ⟨still ▸ written, .inl dead⟩
  · obtain ⟨inOrder, others, cut⟩ := order.resolve_left fun was => dead (stays was)
    -- only the end of the handshake concerns the condition
    have asks (stopped : (n.objs k).state = .stop) (is : ev = .startup true)
        (handshake : (n.objs k).startup = .handshake) :
        (n.objs k).InOrder ∧ (n.ssl = some k → ∀ q ∈ n.requests.getLast?, q.ssl = some k) := by
      subst is
      exact meets ssl stopped handshake
    have whole : h.state ≠ .stop → h.InOrder :=
      (handled.keepsWhole ok ssl life inOrder fun stopped is handshake =>
        (asks stopped is handshake).1).resolve_left dead
    refine ⟨?_, .inr ⟨whole, others, fun some current => ?_⟩⟩
    · have given : h.log.given = mid.map Request.buf := handled.sameCalls.given.trans
        (given_of_split ledger ssl before requests all others)
      rw [← given]
      exact after.written_whole isSsl dead whole
    · have stopped := cut some current
      rcases handled.stopped ok ssl life stopped with is | still | ⟨is, handshake, _⟩
      · exact absurd is dead
      · exact still
      · have last := (asks stopped is handshake).2 current (post.getLast some) (by
          rw [requests, List.getLast?_append_of_ne_nil _ some]
          exact List.getLast?_eq_some_getLast some)
        exact absurd last (others _ (List.getLast_mem some))

theorem conveys_outside (conveys : Conveys n k pre) (known : k < n.next) (ledger : n.Ledger)
    (live : RelaysLive n) (ssl : (n.objs k).kind = .ssl) {a : NodeAction}
    (meets : n.StreamMeets a) (outside : Outside n a m) : Conveys m k pre := by
  cases outside with
  | accept =>
    exact conveys.part known (.nothing rfl rfl) (leftByCalls_wired.objs_make _ known)
  | udpPacket => exact meets.elim
  | release => exact conveys.part known (.nothing rfl rfl) (leftByCalls_wired.refl _)
  | @relay r ev relay outs callable stepped =>
    by_cases same : k = r
    · subst same
      exact conveys_event conveys ledger (live k known) ssl meets stepped
    · have isSame : Function.update n.objs r relay k = n.objs k := Function.update_of_ne same ..
      refine conveys.part known (.nothing rfl rfl) ?_
      show (n.objs k).KeepsWire (Function.update n.objs r relay k)
      rw [isSame]
      exact leftByCalls_wired.refl _

/-! ## A new ssl relay -/

/-- A new ssl relay has got the request for which it was made. -/
theorem conveys_new (ledger : n.Ledger) (part : Part n m) (new : n.next ≤ k) (known : k < m.next)
    (ssl : (m.objs k).kind = .ssl) : Conveys m k n.requests := by
  obtain ⟨_, relay, buf, is, requests⟩ := madeSsl_part part new known ssl
  refine ⟨fun q there asks => ?_, [⟨some k, relay, buf⟩], [], ?_, fun q there => ?_, ?_, .inr ?_⟩
  · have nothing : n.requestsTo k = [] := by
      rw [← ledger.given k (.inl new), ledger.fresh k new]
    have other : q.sentTo k = none := List.filterMap_eq_nil_iff.mp nothing q there
    unfold Request.sentTo at other
    rw [if_pos asks] at other
    cases other
  · rw [requests, List.append_nil]
  · rw [List.mem_singleton.mp there]
  · rw [is]
    exact List.nil_prefix
  · rw [is]
    exact ⟨fun _ => rfl, fun q there => absurd there List.not_mem_nil, fun some => absurd rfl some⟩

/-! ## Runs -/

/-- The ssl relays convey what they are given; those of the start from the first request on. -/
structure Streams (first : RelayId) (n : Node) : Prop where
  ledger : n.Ledger
  live : RelaysLive n
  next : first ≤ n.next
  conveys : ∀ k, k < n.next → (n.objs k).kind = .ssl →
    ∃ pre, (k < first → pre = []) ∧ Conveys n k pre

variable {first : RelayId}

theorem Streams.keep (streams : Streams first n) (ledger : m.Ledger) (live : RelaysLive m)
    (grows : Grows n m) (kind : ∀ {k}, k < n.next → (m.objs k).kind = (n.objs k).kind)
    (old : ∀ {k pre}, k < n.next → (n.objs k).kind = .ssl → Conveys n k pre → Conveys m k pre)
    (new : ∀ {k}, n.next ≤ k → k < m.next → (m.objs k).kind = .ssl → Conveys m k n.requests) :
    Streams first m where
  ledger := ledger
  live := live
  next := streams.next.trans grows.next
  conveys k known ssl := by
    rcases Nat.lt_or_ge k n.next with before | made
    · have isSsl := (kind before).symm.trans ssl
      obtain ⟨pre, start, conveys⟩ := streams.conveys k before isSsl
      exact ⟨pre, start, old before isSsl conveys⟩
    · refine ⟨n.requests, fun is => ?_, new made known ssl⟩
      exact absurd (Nat.lt_of_lt_of_le is streams.next) (Nat.not_lt.mpr made)

theorem streams_part (wf : WellFormed n) (streams : Streams first n) (part : Part n m) :
    Streams first m := by
  apply streams.keep (ledger_part wf streams.ledger part)
    (relays_part kept_lives wf streams.live part) (grows_part part) (kind_part part)
  · intro k pre known _ conveys
    apply conveys.part known (asksOnce_part part)
    exact leftByCalls_wired.part part known (.inr fun _ _ => Relay.keepsWire_call _ _)
  · exact fun new known ssl => conveys_new streams.ledger part new known ssl

theorem streams_udpPart (wf : WellFormed n) (streams : Streams first n) (part : UdpPart n m) :
    Streams first m := by
  apply streams.keep (ledger_udpPart wf streams.ledger part)
    (relays_udpPart kept_lives streams.live part) (grows_udpPart part) (kind_udpPart part)
  · exact fun known _ conveys => conveys_udpPart conveys known part
  · exact fun new known ssl => absurd ssl (raw_udpPart part new known)

theorem streams_outside {a : NodeAction} (streams : Streams first n) (meets : n.StreamMeets a)
    (outside : Outside n a m) : Streams first m := by
  have live : RelaysLive m := relays_outside kept_lives streams.live outside
    fun _ _ lives stepped => lives.step stepped
  apply streams.keep (ledger_outside streams.ledger outside) live (grows_outside outside)
    (kind_outside outside)
  · intro k pre known ssl conveys
    exact conveys_outside conveys known streams.ledger streams.live ssl meets outside
  · exact fun new known ssl => absurd ssl (raw_outside outside new known)

theorem conveys_start {n₀ : Node} (starts : Starts n₀) : Conveys n₀ k [] := by
  have empty : n₀.requests = [] := by
    cases starts <;> rfl
  have log : (n₀.objs k).log = {} := by
    cases starts <;> rfl
  have inbox : (n₀.objs k).posted = [] := by
    cases starts <;> rfl
  refine ⟨fun _ there => absurd there List.not_mem_nil, [], [], empty,
    fun _ there => absurd there List.not_mem_nil, ?_, .inr ⟨fun _ => ?_, ?_, ?_⟩⟩
  · rw [log]
    exact List.nil_prefix
  · unfold Relay.InOrder
    rw [log, inbox]
    rfl
  · exact fun _ there => absurd there List.not_mem_nil
  · exact fun some => absurd rfl some

/-- **What goes through an ssl connection** in every run under the condition. -/
theorem conveys_reach {n₀ : Node} (starts : Starts n₀) (run : Reach step StreamMeets n₀ n)
    (known : k < n.next) (ssl : (n.objs k).kind = .ssl) :
    ∃ pre, (k < n₀.next → pre = []) ∧ Conveys n k pre := by
  have start : Streams n₀.next n₀ :=
    ⟨starts.ledger, starts.relaysLive, Nat.le_refl _,
      fun k _ _ => ⟨[], fun _ => rfl, conveys_start starts⟩⟩
  have streams : Streams n₀.next n := parts_rule starts.wellFormed run start streams_part
    streams_udpPart fun _ streams meets outside => streams_outside streams meets outside
  exact streams.conveys k known ssl

end Node

end SslSocks
