import Credentialsd.Lib.Machine

/-!
# Watching for the client (`credentialsd-ui/src/dbus.rs:487-517`)

`notify_on_disconnected` asks the bus whether the client is there and, if it is,
leaves the rest to a task that subscribes to `NameOwnerChanged`. The question and the
subscription are two round trips. The client, the bus and the two parties move in any
order; a subscriber sees the signals that are emitted after it has subscribed.
-/

namespace Credentialsd

namespace Disconnects

/-- The arguments of `NameOwnerChanged` that are read. -/
structure NameOwnerChanged where
  name : String
  newOwner : Option String
  deriving Repr, DecidableEq

/- What `signal.args()` gives. -/
abbrev Signal := Except String NameOwnerChanged

/- The awaits of `notify_on_disconnected`; `returned` is `Ok(rx)`. -/
inductive NotifyPc where
  | proxy
  | query
  | sendNow
  | spawn
  | returned
  | failed (err : String)
  deriving Repr, DecidableEq

/- The awaits of the spawned task. -/
inductive WatchPc where
  | notSpawned
  | subscribe
  | receive
  | send (res : Except String Unit)
  | done
  deriving Repr, DecidableEq

structure State where
  busName : String
  /- The client is on the bus. -/
  connected : Bool
  /- The connection to the bus is up. -/
  bus : Bool
  notify : NotifyPc
  watch : WatchPc
  /- Signals that the stream of the watcher holds. -/
  stream : List Signal
  /- The channel that is returned, of capacity 1. -/
  channel : Option (Except String Unit)
  deriving Repr, DecidableEq

inductive Label where
  | proxy (res : Except String Unit)
  | query
  | sendNow
  | spawn
  | subscribe
  | receive
  | send
  | disconnect
  | otherSignal (signal : Signal)
  | busDown
  deriving Repr, DecidableEq

/- The labels of `notify_on_disconnected` and of its task. -/
def Label.isOwn : Label → Bool
  | .disconnect | .otherSignal _ | .busDown => false
  | _ => true

def init (busName : String) (connected : Bool) : State :=
  ⟨busName, connected, true, .proxy, .notSpawned, [], none⟩

namespace State

def disconnectedError (s : State) : String :=
  "Disconnected from bus while waiting for name owner change on " ++ s.busName

/- A signal reaches the stream of a watcher that has subscribed. -/
def emit (s : State) (signal : Signal) : State :=
  match s.watch with
  | .receive => { s with stream := s.stream ++ [signal] }
  | _ => s

def left (s : State) : NameOwnerChanged := ⟨s.busName, none⟩

/- `args.name == bus_name && args.new_owner.is_none()`. -/
def isLeft (s : State) (args : NameOwnerChanged) : Bool :=
  args.name == s.busName && args.newOwner.isNone

/-- The loop of `watch` up to its next await. -/
def receive (s : State) : Option State :=
  match s.watch, s.stream with
  | .receive, [] =>
    if s.bus then none else some { s with watch := .send (.error s.disconnectedError) }
  | .receive, .error err :: stream => some { s with watch := .send (.error err), stream := stream }
  | .receive, .ok args :: stream =>
    if s.isLeft args then some { s with watch := .send (.ok ()), stream := stream }
    else some { s with stream := stream }
  | _, _ => none

end State

def step (s : State) : Label → Option State
  | .proxy res =>
    match s.notify, res with
    | .proxy, .ok () => some { s with notify := .query }
    | .proxy, .error err => some { s with notify := .failed err }
    | _, _ => none
  | .query =>
    match s.notify with
    | .query =>
      if !s.bus then some { s with notify := .failed s.disconnectedError }
      else if s.connected then some { s with notify := .spawn }
      else some { s with notify := .sendNow }
    | _ => none
  | .sendNow =>
    match s.notify with
    | .sendNow => some { s with channel := some (.ok ()), notify := .returned }
    | _ => none
  | .spawn =>
    match s.notify with
    | .spawn => some { s with watch := .subscribe, notify := .returned }
    | _ => none
  | .subscribe =>
    match s.watch with
    | .subscribe =>
      if s.bus then some { s with watch := .receive }
      else some { s with watch := .send (.error s.disconnectedError) }
    | _ => none
  | .receive => s.receive
  | .send =>
    match s.watch with
    | .send res => some { s with channel := some res, watch := .done }
    | _ => none
  | .disconnect =>
    if s.connected then some ({ s with connected := false }.emit (.ok s.left)) else none
  | .otherSignal signal =>
    if signal = .ok s.left then none else some (s.emit signal)
  | .busDown => if s.bus then some { s with bus := false } else none

/-- Neither the function nor its task can go on: it has processed all that it got. -/
def Settled (s : State) : Prop := ∀ l : Label, l.isOwn = true → step s l = none

/-- The client is gone and the bus is up, but nobody will be told. -/
def Missed (s : State) : Prop :=
  s.notify = .returned ∧ s.connected = false ∧ s.bus = true ∧ Settled s ∧ s.channel = none

/-- The client does not leave between the answer of the bus and the subscription. -/
def InTime (s : State) (l : Label) : Prop :=
  l = .disconnect → s.notify ≠ .spawn ∧ s.watch ≠ .subscribe

instance (s : State) (l : Label) : Decidable (InTime s l) := by
  unfold InTime
  infer_instance

/-! ### Clients that leave in time -/

/-- What the two parties know of the client: it was there when the bus was asked, it is there until
the task has subscribed, and when it leaves later a signal is on its way. -/
structure Watched (s : State) : Prop where
  asking : s.notify ≠ .returned → s.watch = .notSpawned
  spawning : s.notify = .spawn → s.connected = true
  subscribing : s.watch = .subscribe → s.connected = true
  receiving : s.watch = .receive → s.connected = true ∨ .ok s.left ∈ s.stream
  answered : s.notify = .returned → s.watch = .notSpawned → s.channel ≠ none
  done : s.watch = .done → s.channel ≠ none
  fresh : s.notify ≠ .returned ∨ s.watch = .subscribe → s.channel = none ∧ s.stream = []

theorem watched_init (busName : String) (connected : Bool) : Watched (init busName connected) where
  asking _ := rfl
  spawning h := by cases h
  subscribing h := by cases h
  receiving h := by cases h
  answered h := by cases h
  done h := by cases h
  fresh _ := ⟨rfl, rfl⟩

theorem isLeft_left (s : State) : s.isLeft s.left = true := by
  unfold State.isLeft State.left
  rw [beq_self_eq_true, Option.isNone_none, Bool.and_self]

/- All that `emit` does: a watcher that receives gets the signal. -/
theorem emit_cases (s : State) (signal : Signal) :
    (s.watch = .receive ∧ s.emit signal = { s with stream := s.stream ++ [signal] }) ∨
      (s.watch ≠ .receive ∧ s.emit signal = s) := by
  unfold State.emit
  split
  · rename_i h
    exact Or.inl ⟨h, rfl⟩
  · rename_i h
    exact Or.inr ⟨h, rfl⟩

/- All that one turn of the loop does. -/
theorem receive_cases {s t : State} (h : s.receive = some t) :
    s.watch = .receive ∧
      ((∃ res stream, t = { s with watch := .send res, stream := stream }) ∨
        ∃ args stream, s.stream = .ok args :: stream ∧ s.isLeft args = false ∧
          t = { s with stream := stream }) := by
  unfold State.receive at h
  split at h
  · rename_i hwatch hstream
    split at h
    · cases h
    · cases h
      exact ⟨hwatch, Or.inl ⟨_, s.stream, by rw [hstream]⟩⟩
  · rename_i hwatch _
    cases h
    exact ⟨hwatch, Or.inl ⟨_, _, rfl⟩⟩
  · rename_i args stream hwatch hstream
    split at h
    · cases h
      exact ⟨hwatch, Or.inl ⟨_, _, rfl⟩⟩
    · rename_i hleft
      cases h
      exact ⟨hwatch, Or.inr ⟨args, stream, hstream, by simpa using hleft, rfl⟩⟩
  · cases h

theorem left_mem_tail {s : State} {args : NameOwnerChanged} {stream : List Signal}
    (h : .ok s.left ∈ s.stream) (hstream : s.stream = .ok args :: stream)
    (hargs : s.isLeft args = false) : .ok s.left ∈ stream := by
  rw [hstream, List.mem_cons] at h
  rcases h with heq | hrest
  · rw [← Except.ok.inj heq, isLeft_left] at hargs
    cases hargs
  · exact hrest

/- The client, the bus and other names leave both parties where they are. -/
theorem watched_env {s t : State} (h : Watched s) (hname : t.busName = s.busName)
    (hnotify : t.notify = s.notify) (hwatch : t.watch = s.watch) (hchannel : t.channel = s.channel)
    (hthere : s.notify = .spawn ∨ s.watch = .subscribe → t.connected = s.connected)
    (hreceive : s.watch = .receive → t.connected = true ∨ .ok s.left ∈ t.stream)
    (hstream : s.watch ≠ .receive → t.stream = s.stream) : Watched t := by
  have hleft : t.left = s.left := by
    unfold State.left
    rw [hname]
  refine ⟨?_, ?_, ?_, ?_, ?_, ?_, ?_⟩
  · rw [hnotify, hwatch]
    exact h.asking
  · rw [hnotify]
    exact fun hspawn => (hthere (Or.inl hspawn)).trans (h.spawning hspawn)
  · rw [hwatch]
    exact fun hsubscribe => (hthere (Or.inr hsubscribe)).trans (h.subscribing hsubscribe)
  · rw [hwatch, hleft]
    exact hreceive
  · rw [hnotify, hwatch, hchannel]
    exact h.answered
  · rw [hwatch, hchannel]
    exact h.done
  · rw [hnotify, hwatch, hchannel]
    intro hfresh
    have hquiet : s.watch ≠ .receive := by
      rcases hfresh with hno | hsubscribe
      · rw [h.asking hno]
        decide
      · rw [hsubscribe]
        decide
    rw [hstream hquiet]
    exact h.fresh hfresh

theorem watched_disconnect {s : State} (h : Watched s) (hin : InTime s .disconnect) :
    Watched ({ s with connected := false }.emit (.ok s.left)) := by
  obtain ⟨hspawn, hsubscribe⟩ := hin rfl
  have hout : ¬ (s.notify = .spawn ∨ s.watch = .subscribe) := by
    rintro (hs | hs)
    · exact hspawn hs
    · exact hsubscribe hs
  rcases emit_cases { s with connected := false } (.ok s.left) with ⟨hwatch, heq⟩ | ⟨hwatch, heq⟩
  · rw [heq]
    exact watched_env h rfl rfl rfl rfl (fun hs => absurd hs hout)
      (fun _ => Or.inr (List.mem_append_right _ List.mem_cons_self)) fun hw => absurd hwatch hw
  · rw [heq]
    exact watched_env h rfl rfl rfl rfl (fun hs => absurd hs hout) (fun hw => absurd hw hwatch)
      fun _ => rfl

theorem watched_otherSignal {s : State} (h : Watched s) (signal : Signal) :
    Watched (s.emit signal) := by
  rcases emit_cases s signal with ⟨hwatch, heq⟩ | ⟨-, heq⟩
  · rw [heq]
    exact watched_env h rfl rfl rfl rfl (fun _ => rfl)
      (fun hw => (h.receiving hw).imp_right (List.mem_append_left _)) fun hw => absurd hwatch hw
  · rw [heq]
    exact h

theorem Watched.returned {s : State} (h : Watched s) (hwatch : s.watch ≠ .notSpawned) :
    s.notify = .returned := by
  by_contra hno
  exact hwatch (h.asking hno)

/- A watcher that is about to tell what it knows. -/
theorem watched_reports {s : State} (h : Watched s) (hwatch : s.watch ≠ .notSpawned)
    (res : Except String Unit) (stream : List Signal) :
    Watched { s with watch := .send res, stream := stream } where
  asking hno := absurd (h.returned hwatch) hno
  spawning := h.spawning
  subscribing hw := by cases hw
  receiving hw := by cases hw
  answered _ hw := by cases hw
  done hw := by cases hw
  fresh hf := by
    rcases hf with hno | hw
    · exact absurd (h.returned hwatch) hno
    · cases hw

theorem watched_receive {s t : State} (h : Watched s) (hstep : s.receive = some t) :
    Watched t := by
  obtain ⟨hwatch, ⟨res, stream, rfl⟩ | ⟨args, stream, hstream, hargs, rfl⟩⟩ := receive_cases hstep
  · exact watched_reports h (by rw [hwatch]; decide) res stream
  · exact watched_env h rfl rfl rfl rfl (fun _ => rfl)
      (fun hw => (h.receiving hw).imp_right fun hmem => left_mem_tail hmem hstream hargs)
      fun hw => absurd hwatch hw

/- The function asks on. -/
theorem watched_asks {s : State} (h : Watched s) (hno : s.notify ≠ .returned) {pc : NotifyPc}
    (hpc : pc ≠ .returned) (hspawn : pc = .spawn → s.connected = true) :
    Watched { s with notify := pc } where
  asking _ := h.asking hno
  spawning := hspawn
  subscribing := h.subscribing
  receiving := h.receiving
  answered hr := absurd hr hpc
  done := h.done
  fresh _ := h.fresh (Or.inl hno)

theorem watched_sendNow {s : State} (h : Watched s) (hnotify : s.notify = .sendNow) :
    Watched { s with channel := some (.ok ()), notify := .returned } where
  asking hno := absurd rfl hno
  spawning hpc := by cases hpc
  subscribing := h.subscribing
  receiving := h.receiving
  answered _ _ := by simp
  done _ := by simp
  fresh hf := by
    rcases hf with hno | hw
    · exact absurd rfl hno
    · have hasking : s.watch = .notSpawned := h.asking (by rw [hnotify]; decide)
      cases hasking.symm.trans hw

theorem watched_spawn {s : State} (h : Watched s) (hnotify : s.notify = .spawn) :
    Watched { s with watch := .subscribe, notify := .returned } where
  asking hno := absurd rfl hno
  spawning hpc := by cases hpc
  subscribing _ := h.spawning hnotify
  receiving hw := by cases hw
  answered _ hw := by cases hw
  done hw := by cases hw
  fresh _ := h.fresh (Or.inl (by rw [hnotify]; decide))

theorem watched_subscribe {s : State} (h : Watched s) (hwatch : s.watch = .subscribe) :
    Watched { s with watch := .receive } where
  asking hno := absurd (h.returned (by rw [hwatch]; decide)) hno
  spawning := h.spawning
  subscribing hw := by cases hw
  receiving _ := Or.inl (h.subscribing hwatch)
  answered _ hw := by cases hw
  done hw := by cases hw
  fresh hf := by
    rcases hf with hno | hw
    · exact absurd (h.returned (by rw [hwatch]; decide)) hno
    · cases hw

theorem watched_send {s : State} (h : Watched s) (hwatch : s.watch ≠ .notSpawned)
    (res : Except String Unit) : Watched { s with channel := some res, watch := .done } where
  asking hno := absurd (h.returned hwatch) hno
  spawning := h.spawning
  subscribing hw := by cases hw
  receiving hw := by cases hw
  answered _ hw := by cases hw
  done _ := by simp
  fresh hf := by
    rcases hf with hno | hw
    · exact absurd (h.returned hwatch) hno
    · cases hw

theorem watched_step {s t : State} {l : Label} (h : Watched s) (hin : InTime s l)
    (hstep : step s l = some t) : Watched t := by
  cases l with
  | proxy res =>
    simp only [step] at hstep
    split at hstep
    · rename_i hnotify
      cases hstep
      exact watched_asks h (by rw [hnotify]; decide) (by decide) (by simp)
    · rename_i hnotify
      cases hstep
      exact watched_asks h (by rw [hnotify]; decide) (by simp) (by simp)
    · cases hstep
  | query =>
    simp only [step] at hstep
    split at hstep
    · rename_i hnotify
      have hno : s.notify ≠ .returned := by rw [hnotify]; decide
      split at hstep
      · cases hstep
        exact watched_asks h hno (by simp) (by simp)
      · split at hstep
        · rename_i hthere
          cases hstep
          exact watched_asks h hno (by decide) fun _ => hthere
        · cases hstep
          exact watched_asks h hno (by decide) (by simp)
    · cases hstep
  | sendNow =>
    simp only [step] at hstep
    split at hstep
    · rename_i hnotify
      cases hstep
      exact watched_sendNow h hnotify
    · cases hstep
  | spawn =>
    simp only [step] at hstep
    split at hstep
    · rename_i hnotify
      cases hstep
      exact watched_spawn h hnotify
    · cases hstep
  | subscribe =>
    simp only [step] at hstep
    split at hstep
    · rename_i hwatch
      split at hstep
      · cases hstep
        exact watched_subscribe h hwatch
      · cases hstep
        exact watched_reports h (by rw [hwatch]; decide) _ s.stream
    · cases hstep
  | receive => exact watched_receive h hstep
  | send =>
    simp only [step] at hstep
    split at hstep
    · rename_i res hwatch
      cases hstep
      exact watched_send h (by rw [hwatch]; simp) res
    · cases hstep
  | disconnect =>
    simp only [step] at hstep
    split at hstep
    · cases hstep
      exact watched_disconnect h hin
    · cases hstep
  | otherSignal signal =>
    simp only [step] at hstep
    split at hstep
    · cases hstep
    · cases hstep
      exact watched_otherSignal h signal
  | busDown =>
    simp only [step] at hstep
    split at hstep
    · cases hstep
      exact watched_env h rfl rfl rfl rfl (fun _ => rfl) h.receiving fun _ => rfl
    · cases hstep

theorem not_missed {s : State} (h : Watched s) : ¬ Missed s := by
  rintro ⟨hreturned, hgone, hbus, hsettled, hchannel⟩
  cases hwatch : s.watch with
  | notSpawned => exact h.answered hreturned hwatch hchannel
  | subscribe =>
    have hthere := h.subscribing hwatch
    rw [hgone] at hthere
    cases hthere
  | receive =>
    have hreceive : s.receive = none := hsettled .receive rfl
    have hmem : .ok s.left ∈ s.stream := by
      rcases h.receiving hwatch with hthere | hmem
      · rw [hgone] at hthere
        cases hthere
      · exact hmem
    unfold State.receive at hreceive
    rw [hwatch] at hreceive
    cases hstream : s.stream with
    | nil =>
      rw [hstream] at hmem
      cases hmem
    | cons signal stream =>
      rw [hstream] at hreceive
      cases signal with
      | error err => cases hreceive
      | ok args =>
        simp only at hreceive
        split at hreceive
        · cases hreceive
        · cases hreceive
  | send res =>
    have hsend := hsettled .send rfl
    simp only [step, hwatch] at hsend
    cases hsend
  | done => exact h.done hwatch hchannel

/-- No client that leaves in time is missed. -/
theorem never_missed (busName : String) (connected : Bool) (ls : List Label) (s : State)
    (htime : Machine.Along step (fun s l _ => InTime s l) (init busName connected) ls)
    (hrun : Machine.exec step (init busName connected) ls = some s) : ¬ Missed s := by
  refine not_missed (Machine.exec_invariant (I := Watched) ?_ (watched_init busName connected)
    htime hrun)
  exact fun s l t h hin hstep => watched_step h hin hstep

/-! ### Clients that leave in between -/

/- The bus stays up and its signals can be read. -/
def Undisturbed (l : Label) : Prop := l ≠ .busDown ∧ ∀ err, l ≠ .otherSignal (.error err)

/-- The client has left in between: no signal of that is on its way to the watcher, and nothing else
will make it report. -/
structure Late (s : State) : Prop where
  gone : s.connected = false
  up : s.bus = true
  untold : s.channel = none
  waiting : (s.notify = .spawn ∧ s.watch = .notSpawned) ∨
    (s.notify = .returned ∧ (s.watch = .subscribe ∨ s.watch = .receive))
  others : ∀ signal ∈ s.stream, ∃ args, signal = .ok args ∧ s.isLeft args = false

theorem late_disconnect {s : State} (h : Watched s) (hin : ¬ InTime s .disconnect)
    (hbus : s.bus = true) : Late ({ s with connected := false }.emit (.ok s.left)) := by
  have hwindow : s.notify = .spawn ∨ s.watch = .subscribe := by
    by_contra hno
    rw [not_or] at hno
    exact hin fun _ => hno
  have hfresh : s.channel = none ∧ s.stream = [] := by
    rcases hwindow with hspawn | hsubscribe
    · exact h.fresh (Or.inl (by rw [hspawn]; decide))
    · exact h.fresh (Or.inr hsubscribe)
  have hwatch : s.watch ≠ .receive := by
    rcases hwindow with hspawn | hsubscribe
    · rw [h.asking (by rw [hspawn]; decide)]
      decide
    · rw [hsubscribe]
      decide
  rcases emit_cases { s with connected := false } (.ok s.left) with ⟨hreceive, -⟩ | ⟨-, heq⟩
  · exact absurd hreceive hwatch
  · rw [heq]
    refine ⟨rfl, hbus, hfresh.1, ?_, ?_⟩
    · rcases hwindow with hspawn | hsubscribe
      · exact Or.inl ⟨hspawn, h.asking (by rw [hspawn]; decide)⟩
      · exact Or.inr ⟨h.returned (by rw [hsubscribe]; decide), Or.inl hsubscribe⟩
    · intro signal hmem
      have hempty : s.stream = [] := hfresh.2
      rw [show ({ s with connected := false } : State).stream = s.stream from rfl, hempty] at hmem
      cases hmem

theorem late_receive {s t : State} (h : Late s) (hstep : s.receive = some t) : Late t := by
  obtain ⟨hwatch, -⟩ := receive_cases hstep
  unfold State.receive at hstep
  cases hstream : s.stream with
  | nil =>
    simp only [hwatch, hstream, h.up] at hstep
    cases hstep
  | cons signal stream =>
    obtain ⟨args, rfl, hargs⟩ := h.others signal (by rw [hstream]; exact List.mem_cons_self)
    have hreturned : s.notify = .returned := by
      rcases h.waiting with ⟨-, hnot⟩ | ⟨hreturned, -⟩
      · rw [hwatch] at hnot
        cases hnot
      · exact hreturned
    simp only [hwatch, hstream, hargs] at hstep
    cases hstep
    refine ⟨h.gone, h.up, h.untold, Or.inr ⟨hreturned, Or.inr rfl⟩, ?_⟩
    intro other hmem
    exact h.others other (by rw [hstream]; exact List.mem_cons_of_mem _ hmem)

theorem late_otherSignal {s : State} (h : Late s) {signal : Signal}
    (hreadable : ∀ err, signal ≠ .error err) (hother : signal ≠ .ok s.left) :
    Late (s.emit signal) := by
  rcases emit_cases s signal with ⟨-, heq⟩ | ⟨-, heq⟩
  · rw [heq]
    refine ⟨h.gone, h.up, h.untold, h.waiting, ?_⟩
    intro other hmem
    rcases List.mem_append.mp hmem with hold | hnew
    · exact h.others other hold
    · rw [List.mem_singleton.mp hnew]
      cases signal with
      | error err => exact absurd rfl (hreadable err)
      | ok args =>
        refine ⟨args, rfl, ?_⟩
        obtain ⟨name, newOwner⟩ := args
        rw [← Bool.not_eq_true]
        intro hleft
        simp only [State.isLeft, Bool.and_eq_true, beq_iff_eq, Option.isNone_iff_eq_none] at hleft
        obtain ⟨rfl, rfl⟩ := hleft
        exact hother rfl
  · rw [heq]
    exact h

theorem late_step {s t : State} {l : Label} (h : Late s) (hl : Undisturbed l)
    (hstep : step s l = some t) : Late t := by
  have hgone := h.gone
  cases l with
  | proxy res => rcases h.waiting with ⟨hnotify, -⟩ | ⟨hnotify, -⟩ <;> simp [step, hnotify] at hstep
  | query => rcases h.waiting with ⟨hnotify, -⟩ | ⟨hnotify, -⟩ <;> simp [step, hnotify] at hstep
  | sendNow => rcases h.waiting with ⟨hnotify, -⟩ | ⟨hnotify, -⟩ <;> simp [step, hnotify] at hstep
  | spawn =>
    rcases h.waiting with ⟨hnotify, -⟩ | ⟨hnotify, -⟩
    · simp only [step, hnotify] at hstep
      cases hstep
      exact ⟨h.gone, h.up, h.untold, Or.inr ⟨rfl, Or.inl rfl⟩, h.others⟩
    · simp only [step, hnotify] at hstep
      cases hstep
  | subscribe =>
    rcases h.waiting with ⟨-, hwatch⟩ | ⟨hnotify, hwatch | hwatch⟩
    · simp only [step, hwatch] at hstep
      cases hstep
    · simp only [step, hwatch, h.up, if_true] at hstep
      cases hstep
      exact ⟨h.gone, rfl, h.untold, Or.inr ⟨hnotify, Or.inr rfl⟩, h.others⟩
    · simp only [step, hwatch] at hstep
      cases hstep
  | receive => exact late_receive h hstep
  | send =>
    rcases h.waiting with ⟨-, hwatch⟩ | ⟨-, hwatch | hwatch⟩ <;> simp [step, hwatch] at hstep
  | disconnect => simp [step, hgone] at hstep
  | otherSignal signal =>
    simp only [step] at hstep
    split at hstep
    · cases hstep
    · rename_i hother
      cases hstep
      refine late_otherSignal h ?_ hother
      rintro err rfl
      exact hl.2 err rfl
  | busDown => exact absurd rfl hl.1

/-- A client that leaves in between is not noticed for as long as the bus stays up. -/
theorem late_untold {busName : String} {connected : Bool} {ls ms : List Label} {s u : State}
    (htime : Machine.Along step (fun s l _ => InTime s l) (init busName connected) ls)
    (hrun : Machine.exec step (init busName connected) ls = some s) (hin : ¬ InTime s .disconnect)
    (hbus : s.bus = true) (hms : ∀ l ∈ ms, Undisturbed l)
    (hrest : Machine.exec step s (.disconnect :: ms) = some u) : u.channel = none := by
  obtain ⟨t, ht, hrest⟩ := Machine.exec_cons_some.mp hrest
  have hwatched : Watched s := by
    refine Machine.exec_invariant (I := Watched) ?_ (watched_init busName connected) htime hrun
    exact fun s l t h hin hstep => watched_step h hin hstep
  have hlate : Late t := by
    simp only [step] at ht
    split at ht
    · cases ht
      exact late_disconnect hwatched hin hbus
    · cases ht
  have hend := Machine.exec_invariant (C := fun _ l _ => Undisturbed l) (I := Late)
    (fun s l t h hl hstep => late_step h hl hstep) hlate (Machine.along_of_forall hms) hrest
  exact hend.untold

/-- A client that stays and one that leaves after the task has subscribed. -/
theorem never_missed_leaving :
    ∃ s, Machine.exec step (init ":1.42" true) [.proxy (.ok ()), .query, .spawn, .subscribe,
        .disconnect, .receive, .send] = some s ∧ s.channel = some (.ok ()) ∧ ¬ Missed s := by
  refine ⟨_, rfl, rfl, ?_⟩
  exact never_missed ":1.42" true [.proxy (.ok ()), .query, .spawn, .subscribe, .disconnect,
    .receive, .send] _ (by decide) rfl

/-- The client leaves after the bus has been asked and before the task has subscribed. -/
theorem missed_between :
    ∃ s, Machine.exec step (init ":1.42" true) [.proxy (.ok ()), .query, .spawn, .disconnect,
        .subscribe] = some s ∧ Missed s := by
  refine ⟨_, rfl, rfl, rfl, rfl, ?_, rfl⟩
  intro l hl
  cases l with
  | proxy res => cases res <;> rfl
  | disconnect => cases hl
  | otherSignal signal => cases hl
  | busDown => cases hl
  | _ => rfl

end Disconnects

end Credentialsd
