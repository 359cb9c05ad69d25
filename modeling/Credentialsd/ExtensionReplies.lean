import Credentialsd.ExtensionHosts

/-!
# What the promises of the pages are settled with

Every task that the background script waits for has a host, and every one that has returned had
one. The requests are those that the calls of the page have posted, under numbers of their own, and
the bus gives every host another name: so no reply, and no signal of the portal, can get to another
request than its own.
-/

namespace Credentialsd

open Shim (Runtime PasskeyOperation PortalCall PyValue)

/-! ### Steps of the scripts -/

namespace AddOn

open PageScripts (isNative posts)

theorem State.frame_call (s : State) (cmd : Cmd) (options : Option CallOptions) :
    (s.call cmd options).awaiting = s.awaiting ∧ (s.call cmd options).finished = s.finished := by
  unfold State.call
  split
  · exact ⟨rfl, rfl⟩
  · split
    · split
      · exact ⟨rfl, rfl⟩
      · exact ⟨rfl, rfl⟩
    · exact ⟨rfl, rfl⟩

theorem State.frame_postTo (s : State) (port : Nat) (m : Message) :
    (s.postTo port m).awaiting = s.awaiting ∧ (s.postTo port m).finished = s.finished ∧
      (s.postTo port m).requestCounter = s.requestCounter := by
  unfold State.postTo
  split
  · exact ⟨rfl, rfl, rfl⟩
  · exact ⟨rfl, rfl, rfl⟩

theorem State.frame_receive (s : State) (m : Message) :
    (∃ new, (s.receive m).awaiting = s.awaiting ++ new) ∧ (s.receive m).finished = s.finished ∧
      (s.receive m).requestCounter = s.requestCounter := by
  cases m with
  | windowRequest r =>
    simp only [State.receive, State.receiveRequest]
    split
    · obtain ⟨hawaiting, hfinished, hcounter⟩ := s.frame_postTo _ (.portRequest _ r)
      exact ⟨⟨[], by rw [hawaiting, List.append_nil]⟩, hfinished, hcounter⟩
    · obtain ⟨hawaiting, hfinished, hcounter⟩ :=
        s.connectToBackground.frame_postTo s.bridge.ports (.portRequest s.bridge.ports r)
      exact ⟨⟨[], by rw [hawaiting, List.append_nil]; rfl⟩, hfinished, hcounter⟩
  | portRequest port r => exact ⟨⟨[⟨port, r⟩], rfl⟩, rfl, rfl⟩
  | portResponse port r => exact ⟨⟨[], (List.append_nil _).symm⟩, rfl, rfl⟩
  | windowResponse r =>
    simp only [State.receive, State.receiveResponse]
    split
    · exact ⟨⟨[], (List.append_nil _).symm⟩, rfl, rfl⟩
    · exact ⟨⟨[], (List.append_nil _).symm⟩, rfl, rfl⟩

/-- What a step is for the requests: a call for a credential, one for the capabilities of the
client, the return of a task, or a step by which the background script may begin to wait. -/
inductive Advance (s : State) (e : Event) : State → Prop where
  | calls (cmd : Cmd) (options : Option CallOptions) (he : isNative e = false)
      (hcmd : cmd ≠ .getClientCapabilities) : Advance s e (s.call cmd options)
  | capabilities (he : isNative e = false) : Advance s e s.getClientCapabilities
  | returns (t : State) (he : isNative e = true) (hcounter : t.requestCounter = s.requestCounter) :
      Advance s e t
  | passes (t : State) (new : List Task) (he : isNative e = false)
      (hawaiting : t.awaiting = s.awaiting ++ new) (hfinished : t.finished = s.finished)
      (hcounter : t.requestCounter = s.requestCounter) : Advance s e t

/- A task that returns. -/
theorem step_native {s t : State} {i : Nat} {outcome : Outcome}
    (h : step s (.native i outcome) = some t) : ∃ task, s.awaiting[i]? = some task ∧
      t.awaiting = s.awaiting.eraseIdx i ∧ t.finished = s.finished ++ [(task, outcome)] ∧
      t.requestCounter = s.requestCounter := by
  simp only [step] at h
  split at h
  · cases h
  · rename_i task ht
    cases h
    refine ⟨task, ht, ?_⟩
    cases outcome with
    | rejected => exact ⟨rfl, rfl, rfl⟩
    | replied reply => exact State.frame_postTo _ _ _

theorem step_advance {s t : State} {e : Event} (h : step s e = some t) : Advance s e t := by
  cases e with
  | create options =>
    cases h
    exact .calls .create options rfl Cmd.noConfusion
  | get options =>
    cases h
    exact .calls .get options rfl Cmd.noConfusion
  | getClientCapabilities =>
    cases h
    exact .capabilities rfl
  | deliver i =>
    simp only [step] at h
    split at h
    · cases h
    · rename_i m hm
      split at h
      · cases h
        obtain ⟨⟨new, hnew⟩, hfinished, hcounter⟩ :=
          State.frame_receive { s with messages := s.messages.eraseIdx i } m
        exact .passes _ new rfl hnew hfinished hcounter
      · cases h
  | native i outcome =>
    obtain ⟨task, -, -, -, hcounter⟩ := step_native h
    exact .returns t rfl hcounter
  | disconnect port =>
    simp only [step] at h
    split at h <;> cases h
    exact .passes _ [] rfl (List.append_nil _).symm rfl rfl
  | noticed port =>
    simp only [step] at h
    split at h <;> cases h
    exact .passes _ [] rfl (List.append_nil _).symm rfl rfl
  | timer =>
    simp only [step] at h
    split at h <;> cases h
    exact .passes _ [] rfl (List.append_nil _).symm rfl rfl
  | lose i =>
    simp only [step] at h
    split at h
    · cases h
    · split at h
      · cases h
      · split at h <;> cases h
        exact .passes _ [] rfl (List.append_nil _).symm rfl rfl

theorem step_scripts {s t : State} {e : Event} (h : step s e = some t) (he : isNative e = false) :
    (∃ new, t.awaiting = s.awaiting ++ new) ∧ t.finished = s.finished := by
  cases step_advance h with
  | calls cmd options _ _ =>
    obtain ⟨hawaiting, hfinished⟩ := s.frame_call cmd options
    exact ⟨⟨[], by rw [hawaiting, List.append_nil]⟩, hfinished⟩
  | capabilities _ => exact ⟨⟨[], (List.append_nil _).symm⟩, rfl⟩
  | returns _ hnative _ =>
    rw [hnative] at he
    cases he
  | passes _ new _ hawaiting hfinished _ => exact ⟨⟨new, hawaiting⟩, hfinished⟩

theorem posts_of_counter {s t : State} (h : t.requestCounter = s.requestCounter) :
    posts s t = [] := by
  unfold posts
  rw [if_neg (by omega)]

theorem posts_call (s : State) (cmd : Cmd) (options : Option String) :
    posts s (s.startRequest.post (.windowRequest ⟨s.requestCounter, cmd, options⟩)) =
      [⟨s.requestCounter, cmd, options⟩] := by
  unfold posts
  rw [if_pos (by simp [State.startRequest, State.post])]
  simp [State.startRequest, State.post, Message.request]

theorem posts_throws (s : State) :
    posts s { s.startRequest with thrown := s.thrown ++ [s.requestCounter] } = [] := by
  unfold posts
  simp [State.startRequest]

/-- What is asked for the capabilities of the client has no options. -/
theorem posts_options {s t : State} {e : Event} (h : step s e = some t) :
    ∀ r ∈ posts s t, r.cmd = .getClientCapabilities → r.options = none := by
  intro r hr hcapabilities
  cases step_advance h with
  | calls cmd options _ hcmd =>
    unfold State.call at hr
    split at hr
    · rw [posts_of_counter rfl] at hr
      cases hr
    · split at hr
      · split at hr
        · rw [posts_throws] at hr
          cases hr
        · rw [posts_call] at hr
          cases List.mem_singleton.mp hr
          exact absurd hcapabilities hcmd
      · rw [posts_of_counter rfl] at hr
        cases hr
  | capabilities _ =>
    rw [State.getClientCapabilities, posts_call] at hr
    cases List.mem_singleton.mp hr
    rfl
  | returns _ _ hcounter =>
    rw [posts_of_counter hcounter] at hr
    cases hr
  | passes _ _ _ _ _ hcounter =>
    rw [posts_of_counter hcounter] at hr
    cases hr

/-- The requests that are on their way or waited for have been posted, each under its number. -/
structure Carried (s : State) (asked : List Request) : Prop where
  messages : ∀ m ∈ s.messages, ∀ r, m.request = some r → r ∈ asked
  awaiting : ∀ t ∈ s.awaiting, t.request ∈ asked
  numbered : ∀ r ∈ asked, r.requestId < s.requestCounter
  nodup : (asked.map Request.requestId).Nodup

theorem carried_init : Carried init [] := ⟨by simp [init], by simp [init], by simp, by simp⟩

/- A step by which the requests only go elsewhere. -/
theorem Carried.of_subset {s t : State} {asked : List Request} (h : Carried s asked)
    (hcounter : t.requestCounter = s.requestCounter)
    (hmessages : ∀ m ∈ t.messages, m ∈ s.messages ∨ m.request = none ∨
      ∃ m' ∈ s.messages, m'.request = m.request)
    (hawaiting : ∀ task ∈ t.awaiting, task ∈ s.awaiting ∨
      ∃ m ∈ s.messages, m.request = some task.request) : Carried t (asked ++ posts s t) := by
  rw [posts_of_counter hcounter, List.append_nil]
  refine ⟨?_, ?_, fun r hr => hcounter ▸ h.numbered r hr, h.nodup⟩
  · intro m hm r hr
    rcases hmessages m hm with hold | hnone | ⟨m', hm', hsame⟩
    · exact h.messages m hold r hr
    · rw [hnone] at hr
      cases hr
    · exact h.messages m' hm' r (hsame.trans hr)
  · intro task htask
    rcases hawaiting task htask with hold | ⟨m, hm, hrequest⟩
    · exact h.awaiting task hold
    · exact h.messages m hm task.request hrequest

theorem carried_move {s t : State} {asked : List Request} (h : Carried s asked) (hm : Move s t) :
    Carried t (asked ++ posts s t) := by
  have herased {i : Nat} {m : Message} (hmem : m ∈ s.messages.eraseIdx i) : m ∈ s.messages :=
    List.mem_of_mem_eraseIdx hmem
  cases hm with
  | bridge b => exact h.of_subset rfl (fun m hm => Or.inl hm) fun task ht => Or.inl ht
  | throws =>
    rw [posts_throws, List.append_nil]
    exact ⟨h.messages, h.awaiting, fun r hr => Nat.lt_succ_of_lt (h.numbered r hr), h.nodup⟩
  | calls cmd options =>
    rw [posts_call]
    refine ⟨?_, fun task ht => List.mem_append_left _ (h.awaiting task ht), ?_, ?_⟩
    · intro m hm r hr
      rcases List.mem_append.mp hm with hold | hnew
      · exact List.mem_append_left _ (h.messages m hold r hr)
      · cases List.mem_singleton.mp hnew
        cases hr
        exact List.mem_append_right _ (List.mem_singleton_self _)
    · intro r hr
      rcases List.mem_append.mp hr with hold | hnew
      · exact Nat.lt_succ_of_lt (h.numbered r hold)
      · cases List.mem_singleton.mp hnew
        exact Nat.lt_succ_self _
    · rw [List.map_append]
      refine List.nodup_append.mpr ⟨h.nodup, by simp, ?_⟩
      intro n hn n' hn' heq
      obtain ⟨r, hr, rfl⟩ := List.mem_map.mp hn
      have hlt := h.numbered r hr
      have hnew : n' = s.requestCounter := by simpa using hn'
      omega
  | passRequest i r port b hmessage =>
    refine h.of_subset rfl (fun m hm => ?_) fun task ht => Or.inl ht
    rcases List.mem_append.mp hm with hold | hnew
    · exact Or.inl (herased hold)
    · cases List.mem_singleton.mp hnew
      exact Or.inr (Or.inr ⟨_, List.mem_of_getElem? hmessage, rfl⟩)
  | drop i m b hmessage hdrop =>
    exact h.of_subset rfl (fun m hm => Or.inl (herased hm)) fun task ht => Or.inl ht
  | takeRequest i port r hmessage =>
    refine h.of_subset rfl (fun m hm => Or.inl (herased hm)) fun task ht => ?_
    rcases List.mem_append.mp ht with hold | hnew
    · exact Or.inl hold
    · cases List.mem_singleton.mp hnew
      exact Or.inr ⟨_, List.mem_of_getElem? hmessage, rfl⟩
  | passResponse i port r hmessage =>
    refine h.of_subset rfl (fun m hm => ?_) fun task ht => Or.inl ht
    rcases List.mem_append.mp hm with hold | hnew
    · exact Or.inl (herased hold)
    · cases List.mem_singleton.mp hnew
      exact Or.inr (Or.inl rfl)
  | takeResponse i r hmessage =>
    unfold State.receiveResponse
    split
    · exact h.of_subset rfl (fun m hm => Or.inl (herased hm)) fun task ht => Or.inl ht
    · exact h.of_subset rfl (fun m hm => Or.inl (herased hm)) fun task ht => Or.inl ht
  | replied i task reply ht =>
    refine h.of_subset rfl (fun m hm => ?_) fun task ht => Or.inl (List.mem_of_mem_eraseIdx ht)
    rcases List.mem_append.mp hm with hold | hnew
    · exact Or.inl hold
    · cases List.mem_singleton.mp hnew
      exact Or.inr (Or.inl rfl)
  | returned i task outcome ht hout =>
    exact h.of_subset rfl (fun m hm => Or.inl hm)
      fun task ht => Or.inl (List.mem_of_mem_eraseIdx ht)
  | disconnect port => exact h.of_subset rfl (fun m hm => Or.inl hm) fun task ht => Or.inl ht

/- The numbers of the tasks are different. -/
theorem Placed.nodup_tasks {s : State} (h : Placed s) :
    ((s.awaiting ++ s.finished.map Prod.fst).map fun t => t.request.requestId).Nodup := by
  refine List.nodup_iff_count_le_one.mpr fun r => ?_
  have honce := h.once r
  have hasks : (s.awaiting ++ s.finished.map Prod.fst).countP (Task.asks r) ≤ 1 := by
    rw [List.countP_append, List.countP_map]
    unfold State.places at honce
    have hsame : (Task.asks r ∘ Prod.fst : Task × Outcome → Bool) = fun f => f.1.asks r := rfl
    rw [hsame]
    omega
  rw [List.count, List.countP_map]
  exact hasks

end AddOn

/-! ### A page -/

theorem set_of_getElem? {α : Type} {l : List α} {i : Nat} {a : α} (h : l[i]? = some a) :
    l.set i a = l := by
  obtain ⟨hlt, rfl⟩ := List.getElem?_eq_some_iff.mp h
  exact List.set_getElem_self hlt

theorem filterMap_sublist {α β : Type} {f : α → Option β} {g : α → β}
    (h : ∀ a b, f a = some b → b = g a) (l : List α) : (l.filterMap f).Sublist (l.map g) := by
  induction l with
  | nil => exact List.Sublist.refl _
  | cons a l ih =>
    rw [List.filterMap_cons, List.map_cons]
    cases hf : f a with
    | none => exact ih.cons _
    | some b =>
      rw [h a b hf]
      exact ih.cons_cons _

namespace PageScripts

/-- The calls of the portal that the hosts of a page have made, by the numbers of the requests. -/
def calls (page : PageScripts) : List (Nat × PasskeyOperation) :=
  (page.hosts ++ page.gone).filterMap fun h =>
    h.operation.map fun o => (h.task.request.requestId, o)

section

variable (rt : Runtime) (origin : String)

/-- The call is what the request asks for: it is of the method for its command, and it has the
origin of the page and the options under `publicKey`. -/
def AsksFor (request : AddOn.Request) (o : PasskeyOperation) : Prop :=
  ∃ text topOrigin options reqJson, request.options = some text ∧
    PageOptions.publicKeyOptions (rt.options text) = .ok options ∧ rt.dumps options = .ok reqJson ∧
    Shim.portalCall request.cmd origin topOrigin reqJson o.request.token = some o.call

/-- What `main` of the host has raised, or has not been able to write. -/
def Raises (h : Host) (e : NativeHost.Raised) : Prop :=
  e.isException = true ∧ (h.process.outcome = .error e ∨ ∃ v, h.process.outcome = .ok v ∧
    NativeHost.encodeMessage rt.encode ⟨h.process.message.requestId, .data v⟩ = .error e)

/-- What settles the promise of a request. It is resolved with the results of the signal that has
answered the call of the portal for this request; it is rejected with what its host has raised. -/
def SettledFor (page : PageScripts) (k : Nat) : AddOn.Settlement → Prop
  | .resolved data => ∃ request ∈ page.asked, request.requestId = k ∧
      ∃ o msg value v, (k, o) ∈ page.calls ∧ AsksFor rt origin request o ∧ o.SettledBy msg value ∧
        rt.result request.cmd (.result value) = .ok v ∧ data = rt.arrives v
  | .rejected message name => ∃ h ∈ page.gone, h.task.request.requestId = k ∧ ∃ e, Raises rt h e ∧
      message = AddOn.orElse e.message "WebAuthn operation failed" ∧
      name = AddOn.orElse e.name "NotAllowedError"

/-- The hosts are those of the tasks of the background script, and what has come of a task is what
its host has replied. -/
structure Inv (page : PageScripts) : Prop where
  reached : Machine.Reaches AddOn.step AddOn.init page.addOn
  carried : AddOn.Carried page.addOn page.asked
  options : ∀ r ∈ page.asked, r.cmd = .getClientCapabilities → r.options = none
  waits : page.hosts.map Host.task = page.addOn.awaiting
  returned : page.gone.map Host.task = page.addOn.finished.map Prod.fst
  hosts : ∀ h ∈ page.hosts ++ page.gone,
    h.Inv rt ∧ h.origin = origin ∧ h.task.request ∈ page.asked
  replies : ∀ t reply, (t, AddOn.Outcome.replied reply) ∈ page.addOn.finished →
    ∃ h ∈ page.gone, h.task = t ∧
      ∃ response, h.outcome rt = some (some response) ∧ response.reply = reply

theorem inv_empty : Inv rt origin {} where
  reached := Machine.Reaches.refl _ _
  carried := AddOn.carried_init
  options := by simp
  waits := rfl
  returned := rfl
  hosts := by simp
  replies := by simp [AddOn.init]

theorem move_eq {page page' : PageScripts} {topOrigin : String} {e : AddOn.Event}
    (he : page.move rt origin topOrigin e = some page') :
    ∃ addOn new, AddOn.step page.addOn e = some addOn ∧
      addOn.awaiting = page.addOn.awaiting ++ new ∧ addOn.finished = page.addOn.finished ∧
      page' = { page with
        addOn
        asked := page.asked ++ posts page.addOn addOn
        hosts := page.hosts ++ new.map (Host.launch rt origin topOrigin) } := by
  unfold move at he
  split at he
  · cases he
  · rename_i hnative
    obtain ⟨addOn, hstep, rfl⟩ := Option.map_eq_some_iff.mp he
    have hnative : isNative e = false := by simpa using hnative
    obtain ⟨⟨new, hnew⟩, hfinished⟩ := AddOn.step_scripts hstep hnative
    refine ⟨addOn, new, hstep, hnew, hfinished, ?_⟩
    rw [hnew, List.drop_left]

/- The hosts after a step of the scripts. -/
theorem mem_of_move {page page' : PageScripts} {topOrigin : String} {e : AddOn.Event}
    (he : page.move rt origin topOrigin e = some page') {h : Host}
    (hh : h ∈ page'.hosts ++ page'.gone) : h ∈ page.hosts ++ page.gone ∨
      ∃ task ∈ page'.addOn.awaiting, h = Host.launch rt origin topOrigin task := by
  obtain ⟨addOn, new, -, hnew, -, rfl⟩ := move_eq rt origin he
  rcases List.mem_append.mp hh with hwaiting | hgone
  · rcases List.mem_append.mp hwaiting with hold | hlaunched
    · exact Or.inl (List.mem_append_left _ hold)
    · obtain ⟨task, htask, rfl⟩ := List.mem_map.mp hlaunched
      refine Or.inr ⟨task, ?_, rfl⟩
      rw [hnew]
      exact List.mem_append_right _ htask
  · exact Or.inl (List.mem_append_right _ hgone)

/- The hosts after a task has returned. -/
theorem mem_of_settle {page page' : PageScripts} {i : Nat} {h : Host}
    {reply : Option AddOn.Response} (hh : page.hosts[i]? = some h)
    (he : page.settle i h reply = some page') {h' : Host}
    (hh' : h' ∈ page'.hosts ++ page'.gone) : h' ∈ page.hosts ++ page.gone := by
  obtain ⟨task, -, rfl⟩ := Option.map_eq_some_iff.mp he
  rcases List.mem_append.mp hh' with hwaiting | hgone
  · exact List.mem_append_left _ (List.mem_of_mem_eraseIdx hwaiting)
  · rcases List.mem_append.mp hgone with hold | hnew
    · exact List.mem_append_right _ hold
    · cases List.mem_singleton.mp hnew
      exact List.mem_append_left _ (List.mem_of_getElem? hh)

/- The hosts after a step of one of them. -/
theorem mem_of_set {page : PageScripts} {i : Nat} {h' h : Host}
    (hmem : h ∈ page.hosts.set i h' ++ page.gone) : h ∈ page.hosts ++ page.gone ∨ h = h' := by
  rcases List.mem_append.mp hmem with hwaiting | hgone
  · exact (List.mem_or_eq_of_mem_set hwaiting).imp_left (List.mem_append_left _)
  · exact Or.inl (List.mem_append_right _ hgone)

theorem inv_move {page page' : PageScripts} {topOrigin : String} {e : AddOn.Event}
    (hi : page.Inv rt origin) (he : page.move rt origin topOrigin e = some page') :
    page'.Inv rt origin := by
  have hmem {h : Host} (hh : h ∈ page'.hosts ++ page'.gone) := mem_of_move rt origin he hh
  obtain ⟨addOn, new, hstep, hnew, hfinished, rfl⟩ := move_eq rt origin he
  have hcarried := AddOn.carried_move hi.carried (AddOn.step_move hstep)
  refine ⟨hi.reached.snoc hstep, hcarried, ?_, ?_, ?_, ?_, ?_⟩
  · intro r hr
    rcases List.mem_append.mp hr with hold | hposted
    · exact hi.options r hold
    · exact AddOn.posts_options hstep r hposted
  · have hlaunched : (new.map (Host.launch rt origin topOrigin)).map Host.task = new := by
      rw [List.map_map]
      exact List.map_id new
    rw [List.map_append, hlaunched, hi.waits, hnew]
  · rw [hfinished]
    exact hi.returned
  · intro h hh
    rcases hmem hh with hold | ⟨task, htask, rfl⟩
    · obtain ⟨hinv, horigin, hasked⟩ := hi.hosts h hold
      exact ⟨hinv, horigin, List.mem_append_left _ hasked⟩
    · exact ⟨Host.inv_launch rt origin topOrigin task, rfl, hcarried.awaiting task htask⟩
  · intro t reply hreply
    exact hi.replies t reply (hfinished ▸ hreply)

/-- A reply under the number of the task is what the scripts of a page settle the task with. -/
theorem settle_native {page page' : PageScripts} {i : Nat} {h : Host}
    {reply : Option AddOn.Response} {task : AddOn.Task}
    (htask : page.addOn.awaiting[i]? = some task)
    (hid : ∀ response, reply = some response → response.requestId = task.request.requestId)
    (he : page.settle i h reply = some page') :
    ∃ addOn, AddOn.step page.addOn (.native i (outcomeOf reply)) = some addOn ∧
      page' = { page with addOn, hosts := page.hosts.eraseIdx i, gone := page.gone ++ [h] } := by
  unfold settle at he
  rw [htask, Option.map_some] at he
  cases he
  simp only [AddOn.step, htask]
  cases reply with
  | none => exact ⟨_, rfl, rfl⟩
  | some response =>
    obtain ⟨requestId, body⟩ := response
    have hsame : requestId = task.request.requestId := hid _ rfl
    subst hsame
    exact ⟨_, rfl, rfl⟩

theorem inv_settle {page page' : PageScripts} {i : Nat} {h : Host}
    {reply : Option AddOn.Response} (hrt : rt.Faithful) (hi : page.Inv rt origin)
    (hh : page.hosts[i]? = some h)
    (hreply : ∀ response, reply = some response → h.outcome rt = some (some response))
    (he : page.settle i h reply = some page') : page'.Inv rt origin := by
  have hmem {h' : Host} (hh' : h' ∈ page'.hosts ++ page'.gone) := mem_of_settle hh he hh'
  have hwaited : page.addOn.awaiting[i]? = some h.task := by
    rw [← hi.waits, List.getElem?_map, hh]
    rfl
  -- What is posted is what a host writes, and it writes the number that it was given.
  have hid : ∀ response, reply = some response →
      response.requestId = h.task.request.requestId := by
    intro response hresponse
    have hhost := (hi.hosts h (List.mem_append_left _ (List.mem_of_getElem? hh))).1
    exact (Host.outcome_tells rt hrt hhost (hreply response hresponse)).1
  obtain ⟨addOn, hstep, rfl⟩ := settle_native hwaited hid he
  obtain ⟨task, htask, hawaiting, hfinished, hcounter⟩ := AddOn.step_native hstep
  have hcarried := AddOn.carried_move hi.carried (AddOn.step_move hstep)
  rw [AddOn.posts_of_counter hcounter, List.append_nil] at hcarried
  have hown : h.task = task := Option.some.inj (hwaited.symm.trans htask)
  refine ⟨hi.reached.snoc hstep, hcarried, hi.options, ?_, ?_, fun h' hh' => hi.hosts h' (hmem hh'),
    ?_⟩
  · rw [hawaiting, ← hi.waits]
    exact (List.eraseIdx_map ..).symm
  · rw [hfinished, List.map_append, List.map_append, hi.returned, List.map_singleton,
      List.map_singleton, hown]
  · intro t r hr
    rw [hfinished] at hr
    rcases List.mem_append.mp hr with hold | hnew
    · obtain ⟨h', hgone, htask', hresponse⟩ := hi.replies t r hold
      exact ⟨h', List.mem_append_left _ hgone, htask', hresponse⟩
    · obtain ⟨rfl, houtcome⟩ := Prod.mk.inj (List.mem_singleton.mp hnew)
      refine ⟨h, List.mem_append_right _ (List.mem_singleton_self _), hown, ?_⟩
      cases hresponse : reply with
      | none =>
        rw [hresponse] at houtcome
        cases houtcome
      | some response =>
        rw [hresponse] at houtcome
        cases houtcome
        exact ⟨response, hreply response hresponse, rfl⟩

theorem inv_host {page : PageScripts} {i : Nat} {h h' : Host} {l : Host.Label}
    (hi : page.Inv rt origin) (hh : page.hosts[i]? = some h) (he : h.step rt l = some h') :
    ({ page with hosts := page.hosts.set i h' } : PageScripts).Inv rt origin := by
  obtain ⟨hframe, -⟩ := Host.frame_step rt he
  refine ⟨hi.reached, hi.carried, hi.options, ?_, hi.returned, ?_, hi.replies⟩
  · have htask : (page.hosts.map Host.task)[i]? = some h'.task := by
      rw [List.getElem?_map, hh, hframe.task]
      rfl
    rw [List.map_set, set_of_getElem? htask]
    exact hi.waits
  · intro h₁ hmem
    rcases mem_of_set hmem with hold | rfl
    · exact hi.hosts h₁ hold
    · obtain ⟨hinv, horigin, hasked⟩ :=
        hi.hosts h (List.mem_append_left _ (List.mem_of_getElem? hh))
      exact ⟨Host.inv_step rt hinv he, hframe.origin.trans horigin, hframe.task ▸ hasked⟩

/-! ### What follows for a page -/

theorem mem_calls {page : PageScripts} {k : Nat} {o : PasskeyOperation} :
    (k, o) ∈ page.calls ↔
      ∃ h ∈ page.hosts ++ page.gone, h.operation = some o ∧ h.task.request.requestId = k := by
  unfold calls
  rw [List.mem_filterMap]
  constructor
  · rintro ⟨h, hmem, hcall⟩
    obtain ⟨o', ho, heq⟩ := Option.map_eq_some_iff.mp hcall
    cases heq
    exact ⟨h, hmem, ho, rfl⟩
  · rintro ⟨h, hmem, ho, rfl⟩
    exact ⟨h, hmem, by rw [ho]; rfl⟩

theorem asksFor_of_called {h : Host} {o : PasskeyOperation} (hi : h.Inv rt)
    (ho : h.operation = some o) : AsksFor rt h.origin h.task.request o := by
  obtain ⟨⟨options, reqJson, hoptions, hdumps, hcall⟩, -⟩ := hi.called o ho
  rw [hi.options] at hoptions
  unfold Host.requestOptions at hoptions
  cases htext : h.task.request.options with
  | none =>
    rw [htext] at hoptions
    cases hoptions
  | some text =>
    rw [htext] at hoptions
    exact ⟨text, h.topOrigin, options, reqJson, htext, hoptions, hdumps, hcall⟩

/-- A request leads to one call of the portal at most. -/
theorem nodup_calls {page : PageScripts} (hi : page.Inv rt origin) :
    (page.calls.map Prod.fst).Nodup := by
  have hids : ((page.hosts ++ page.gone).map fun h => h.task.request.requestId).Nodup := by
    have htasks := (AddOn.reachable_inv hi.reached).1.nodup_tasks
    rw [← hi.waits, ← hi.returned, ← List.map_append, List.map_map] at htasks
    exact htasks
  refine List.Sublist.nodup ?_ hids
  unfold calls
  rw [List.map_filterMap]
  apply filterMap_sublist
  intro h k hk
  obtain ⟨c, hc, rfl⟩ := Option.map_eq_some_iff.mp hk
  obtain ⟨o, -, rfl⟩ := Option.map_eq_some_iff.mp hc
  rfl

theorem settledFor {page : PageScripts} (hrt : rt.Faithful) (hi : page.Inv rt origin) {k : Nat}
    {x : AddOn.Settlement} (hx : (k, x) ∈ page.addOn.settled) :
    page.SettledFor rt origin k x := by
  obtain ⟨-, hsettled⟩ :=
    AddOn.settledRightly_of_settles (AddOn.reachable_inv hi.reached).2
  obtain ⟨t, reply, hfinished, rfl, rfl⟩ := hsettled k x hx
  obtain ⟨h, hgone, rfl, response, houtcome, rfl⟩ := hi.replies t reply hfinished
  have hmem : h ∈ page.hosts ++ page.gone := List.mem_append_right _ hgone
  obtain ⟨hinv, horigin, hasked⟩ := hi.hosts h hmem
  obtain ⟨-, body, htells, hreply⟩ := Host.outcome_tells rt hrt hinv houtcome
  cases body with
  | data v =>
    obtain ⟨o, value, ho, hfuture, hresult⟩ :=
      Host.completed_of_outcome rt hinv (hi.options _ hasked) htells
    obtain ⟨msg, hmsg⟩ := PasskeyOperation.settledBy_of_future rt hfuture
    have hasks := asksFor_of_called rt hinv ho
    rw [horigin] at hasks
    rw [hreply]
    exact ⟨_, hasked, rfl, o, msg, value, v, mem_calls.mpr ⟨h, hmem, ho, rfl⟩, hasks, hmsg,
      hresult, rfl⟩
  | error name message =>
    obtain ⟨e, hexception, rfl, rfl, hraised⟩ := htells
    rw [hreply]
    exact ⟨h, hgone, rfl, e, ⟨hexception, hraised⟩, rfl, rfl⟩

end

end PageScripts

/-! ### All pages -/

namespace Extension

variable {P : Type} (rt : Runtime) (origin : P → String)

/-- Every name that a host has was given to it, and to no other. -/
structure Inv (s : Extension P) : Prop where
  pages : ∀ p, (s.pages p).Inv rt (origin p)
  names : (s.names.map Prod.fst).Nodup
  named : ∀ p, ∀ h ∈ (s.pages p).hosts ++ (s.pages p).gone, ∀ name, h.uniqueName = some name →
    (name, p, h.task.request.requestId) ∈ s.names

theorem inv_init : (init : Extension P).Inv rt origin where
  pages := fun p => PageScripts.inv_empty rt (origin p)
  names := List.nodup_nil
  named := by simp [init]

/- A name that is given is a new one, and there is one at most. -/
theorem nodup_given {names : List (String × P × Nat)} (h : (names.map Prod.fst).Nodup)
    {given : Option String} (hnew : ∀ name ∈ given, name ∉ names.map Prod.fst) (x : P × Nat) :
    ((names ++ given.toList.map fun name => (name, x)).map Prod.fst).Nodup := by
  cases given with
  | none => simpa using h
  | some name =>
    rw [List.map_append]
    refine List.nodup_append.mpr ⟨h, by simp, ?_⟩
    intro a ha b hb heq
    have hb : b = name := by simpa using hb
    exact hnew name rfl (hb ▸ heq ▸ ha)

/-- A signal is for one of the calls only. -/
theorem matched_once {s : Extension P} (hi : s.Inv rt origin) {p q : P} {k k' : Nat}
    {o o' : PasskeyOperation} {msg : Shim.Message} (hk : (k, o) ∈ (s.pages p).calls)
    (hk' : (k', o') ∈ (s.pages q).calls) (hmsg : o.request.Matches msg)
    (hmsg' : o'.request.Matches msg) : p = q ∧ k = k' := by
  obtain ⟨h, hmem, ho, rfl⟩ := PageScripts.mem_calls.mp hk
  obtain ⟨h', hmem', ho', rfl⟩ := PageScripts.mem_calls.mp hk'
  have hnamed := hi.named p h hmem _ (((hi.pages p).hosts h hmem).1.called o ho).named
  have hnamed' := hi.named q h' hmem' _ (((hi.pages q).hosts h' hmem').1.called o' ho').named
  -- The signal has one destination, which is the name of one host.
  have hname : o.request.uniqueName = o'.request.uniqueName :=
    Option.some.inj (hmsg.2.2.1.symm.trans hmsg'.2.2.1)
  have hsame := List.inj_on_of_nodup_map hi.names hnamed hnamed' hname
  obtain ⟨-, hrest⟩ := Prod.mk.inj hsame
  exact Prod.mk.inj hrest

section Steps

variable [DecidableEq P]

/- One page moves. -/
theorem inv_setPage {s : Extension P} {p : P} {page : PageScripts}
    {names : List (String × P × Nat)} (hi : s.Inv rt origin) (hpage : page.Inv rt (origin p))
    (hnodup : (names.map Prod.fst).Nodup) (hmono : s.names ⊆ names)
    (hnamed : ∀ h ∈ page.hosts ++ page.gone, ∀ name, h.uniqueName = some name →
      (name, p, h.task.request.requestId) ∈ names) :
    ({ s.setPage p page with names } : Extension P).Inv rt origin := by
  refine ⟨fun q => ?_, hnodup, fun q => ?_⟩
  · by_cases hq : q = p
    · subst hq
      simp only [setPage, Function.update_self]
      exact hpage
    · simp only [setPage, Function.update_of_ne hq]
      exact hi.pages q
  · by_cases hq : q = p
    · subst hq
      simp only [setPage, Function.update_self]
      exact hnamed
    · simp only [setPage, Function.update_of_ne hq]
      exact fun h hh name hname => hmono (hi.named q h hh name hname)

theorem inv_page {s t : Extension P} {p : P} {e : AddOn.Event} {topOrigin : String}
    (hi : s.Inv rt origin) (he : step rt origin s (.page p e topOrigin) = some t) :
    t.Inv rt origin := by
  simp only [step] at he
  obtain ⟨page, hpage, rfl⟩ := Option.map_eq_some_iff.mp he
  refine inv_setPage rt origin hi (PageScripts.inv_move rt (origin p) (hi.pages p) hpage) hi.names
    (List.Subset.refl _) ?_
  intro h hh name hname
  rcases PageScripts.mem_of_move rt (origin p) hpage hh with hold | ⟨task, -, rfl⟩
  · exact hi.named p h hold name hname
  · cases hname

theorem inv_settled {s t : Extension P} {p : P} {i : Nat} {h : Host}
    {reply : Option AddOn.Response} (hrt : rt.Faithful) (hi : s.Inv rt origin)
    (hh : (s.pages p).hosts[i]? = some h)
    (hreply : ∀ response, reply = some response → h.outcome rt = some (some response))
    (he : ((s.pages p).settle i h reply).map (s.setPage p) = some t) : t.Inv rt origin := by
  obtain ⟨page, hpage, rfl⟩ := Option.map_eq_some_iff.mp he
  refine inv_setPage rt origin hi
    (PageScripts.inv_settle rt (origin p) hrt (hi.pages p) hh hreply hpage) hi.names
    (List.Subset.refl _) ?_
  intro h' hh' name hname
  exact hi.named p h' (PageScripts.mem_of_settle hh hpage hh') name hname

theorem inv_moveHost {s t : Extension P} {p : P} {i : Nat} {l : Host.Label}
    (hi : s.Inv rt origin) (he : s.moveHost rt p i l = some t) : t.Inv rt origin := by
  obtain ⟨h, hh, he⟩ := Option.bind_eq_some_iff.mp he
  simp only at he
  split at he
  · rename_i hgiven
    obtain ⟨h', hstep, rfl⟩ := Option.map_eq_some_iff.mp he
    have hnew : ∀ name ∈ givenName l, name ∉ s.names.map Prod.fst := by
      intro name hname
      have hfresh := List.all_eq_true.mp hgiven name (Option.mem_toList.mpr hname)
      simpa using hfresh
    refine inv_setPage rt origin hi (PageScripts.inv_host rt (origin p) (hi.pages p) hh hstep)
      (nodup_given hi.names hnew _) (List.subset_append_left _ _) ?_
    intro h₁ hmem name hname
    rcases PageScripts.mem_of_set hmem with hold | rfl
    · exact List.mem_append_left _ (hi.named p h₁ hold name hname)
    · obtain ⟨hframe, hname'⟩ := Host.frame_step rt hstep
      rw [hframe.task]
      rcases hname' with hsame | ⟨r, rfl, hr⟩
      · refine List.mem_append_left _ (hi.named p h ?_ name (hsame ▸ hname))
        exact List.mem_append_left _ (List.mem_of_getElem? hh)
      · -- The name has just been given.
        rw [hr] at hname
        cases r with
        | error e => cases hname
        | ok given =>
          cases hname
          exact List.mem_append_right _ (by simp [givenName])
  · cases he

theorem inv_step {s t : Extension P} {l : Label P} (hrt : rt.Faithful) (hi : s.Inv rt origin)
    (he : step rt origin s l = some t) : t.Inv rt origin := by
  cases l with
  | page p e topOrigin => exact inv_page rt origin hi he
  | host p i l => exact inv_moveHost rt origin hi he
  | settle p i =>
    obtain ⟨h, hh, he⟩ := Option.bind_eq_some_iff.mp he
    obtain ⟨reply, hreply, he⟩ := Option.bind_eq_some_iff.mp he
    exact inv_settled rt origin hrt hi hh (fun response hr => hr ▸ hreply) he
  | lose p i =>
    obtain ⟨h, hh, he⟩ := Option.bind_eq_some_iff.mp he
    exact inv_settled rt origin hrt hi hh (fun response hr => by cases hr) he

theorem inv_of_run {s : Extension P} (hrt : rt.Faithful)
    (h : Machine.Reaches (step rt origin) init s) : s.Inv rt origin :=
  Machine.reaches_invariant (fun _ _ _ hi he => inv_step rt origin hrt hi he) (inv_init rt origin) h

/-- In every run, with any number of pages and requests: the promise of a request is resolved with
the results of a signal for the call of the portal that was made for this very request, and rejected
with what the host of this request has raised. There is one such call at most for a request, and it
is what the request asks for, with the origin of its page; and no signal is for two requests. -/
theorem answered_by_own_request (hrt : rt.Faithful) {s : Extension P}
    (h : Machine.Reaches (step rt origin) init s) :
    (∀ p k x, (k, x) ∈ (s.pages p).addOn.settled →
      (s.pages p).SettledFor rt (origin p) k x) ∧
    (∀ p, ((s.pages p).asked.map AddOn.Request.requestId).Nodup ∧
      ((s.pages p).calls.map Prod.fst).Nodup ∧
      ∀ k o, (k, o) ∈ (s.pages p).calls → ∃ request ∈ (s.pages p).asked,
        request.requestId = k ∧ PageScripts.AsksFor rt (origin p) request o) ∧
    ∀ p q k k' o o' msg, (k, o) ∈ (s.pages p).calls → (k', o') ∈ (s.pages q).calls →
      o.request.Matches msg → o'.request.Matches msg → p = q ∧ k = k' := by
  have hi := inv_of_run rt origin hrt h
  refine ⟨fun p k x hx => PageScripts.settledFor rt (origin p) hrt (hi.pages p) hx, fun p => ?_,
    fun p q k k' o o' msg hk hk' => matched_once rt origin hi hk hk'⟩
  refine ⟨(hi.pages p).carried.nodup, PageScripts.nodup_calls rt (origin p) (hi.pages p), ?_⟩
  intro k o hk
  obtain ⟨host, hmem, ho, rfl⟩ := PageScripts.mem_calls.mp hk
  obtain ⟨hinv, horigin, hasked⟩ := (hi.pages p).hosts host hmem
  exact ⟨_, hasked, rfl, horigin ▸ PageScripts.asksFor_of_called rt hinv ho⟩

end Steps

/-! ### A request that is answered -/

def sampleDumps : PyValue → Except NativeHost.Raised String
  | .dict [(.str "challenge", .str "AQ")] => .ok "\x7b\"challenge\": \"AQ\"\x7d"
  | .dict [(.str "requestId", .int (.ofNat 0)), (.str "data", .dict [(.str "id", .str "AQ")])] =>
    .ok "\x7b\"requestId\": 0, \"data\": \x7b\"id\": \"AQ\"\x7d\x7d"
  | _ => .error ⟨true, "TypeError", "Object is not JSON serializable"⟩

def sampleRuntime : Runtime where
  dumps := sampleDumps
  loads
    | .str "\x7b\"id\": \"AQ\"\x7d" => .ok (.dict [(.str "id", .str "AQ")])
    | _ => .error ⟨true, "JSONDecodeError", "Expecting value: line 1 column 1 (char 0)"⟩
  options := fun _ => .dict [(.str "publicKey", .dict [(.str "challenge", .str "AQ")])]
  parse := fun content =>
    if content = Cbor.utf8 "\x7b\"requestId\": 0, \"data\": \x7b\"id\": \"AQ\"\x7d\x7d" then
      some ⟨0, .data "\x7b\"id\":\"AQ\"\x7d"⟩
    else none
  arrives := fun _ => "\x7b\"id\":\"AQ\"\x7d"
  str := fun _ => ""
  describe := fun _ => ""
  describeHandler := fun _ => ""
  isAlnum := fun _ => false
  recursionLimit := 1000

theorem sampleRuntime_faithful : sampleRuntime.Faithful := by
  rintro ⟨requestId, body⟩ content response hencode hparse
  have hresponse : response = ⟨0, .data "\x7b\"id\":\"AQ\"\x7d"⟩ := by
    simp only [sampleRuntime] at hparse
    split at hparse
    · cases hparse
      rfl
    · cases hparse
  unfold Runtime.encode at hencode
  cases hdumps : sampleDumps (Shim.replyValue ⟨requestId, body⟩) with
  | error e =>
    rw [show sampleRuntime.dumps = sampleDumps from rfl, hdumps] at hencode
    cases hencode
  | ok text =>
    cases body with
    | error name message => simp [Shim.replyValue, sampleDumps] at hdumps
    | data value =>
      unfold sampleDumps Shim.replyValue at hdumps
      split at hdumps
      · rename_i heq
        simp at heq
      · rename_i heq
        obtain ⟨rfl, rfl⟩ : requestId = .int (.ofNat 0) ∧
            value = .dict [(.str "id", .str "AQ")] := by simpa using heq
        rw [hresponse]
        exact ⟨rfl, rfl⟩
      · cases hdumps

def sampleResponse : Shim.Message where
  path := some "/org/freedesktop/portal/desktop/request/1_7/t0"
  messageType := .signal
  destination := some ":1.7"
  interface := some "org.freedesktop.portal.Request"
  member := some "Response"
  body := [.int 0, .dict [
    (.str "type", .variant "s" (.str "public-key")),
    (.str "public_key", .variant "a\x7bsv\x7d" (.dict [
      (.str "authentication_response_json", .variant "s" (.str "\x7b\"id\": \"AQ\"\x7d"))]))]]

def sampleRun : List (Label Bool) :=
  [.page true (.get (some ⟨true, none,
      some "\x7b\"publicKey\":\x7b\"challenge\":\"AQ\"\x7d\x7d"⟩)) "",
    .page true (.deliver 0) "", .page true (.deliver 0) "https://example.org",
    .host true 0 (.interface (.ok ":1.7")), .host true 0 (.begin true "t0"),
    .host true 0 (.returned (.ok ())), .host true 0 (.hear (.message sampleResponse)),
    .host true 0 .complete, .host true 0 (.resume (.ok ())), .settle true 0,
    .page true (.deliver 0) "", .page true (.deliver 0) ""]

theorem answered_sample : ∃ s,
    Machine.exec (step sampleRuntime fun _ => "https://example.org") init sampleRun = some s ∧
    (s.pages true).addOn.settled = [(0, .resolved "\x7b\"id\":\"AQ\"\x7d")] ∧
    (s.pages true).SettledFor sampleRuntime "https://example.org" 0
      (.resolved "\x7b\"id\":\"AQ\"\x7d") := by
  have hrun : (Machine.exec (step sampleRuntime fun _ => "https://example.org") init sampleRun).map
      (fun s => (s.pages true).addOn.settled) =
        some [(0, .resolved "\x7b\"id\":\"AQ\"\x7d")] := by decide +kernel
  obtain ⟨s, hs, hsettled⟩ := Option.map_eq_some_iff.mp hrun
  have hanswered := answered_by_own_request sampleRuntime (fun _ : Bool => "https://example.org")
    sampleRuntime_faithful ⟨sampleRun, hs⟩
  refine ⟨s, hs, hsettled, hanswered.1 true 0 _ ?_⟩
  rw [hsettled]
  exact List.mem_singleton_self _

end Extension

end Credentialsd
