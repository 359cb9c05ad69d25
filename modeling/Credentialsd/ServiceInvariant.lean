import Credentialsd.ServiceTasks

/-!
# What the slot, the tokens and the channels agree on

`SlotMove` lists what one step can do to the slot. `SlotInv` ties the slot, the
lock, the token and the channel of every accepted request together; it holds in
every reachable state, whatever the streams of past requests still do.
-/

namespace Credentialsd
open Machine

namespace Service

/-- Neither cancelled nor answered. -/
def Live (s : Service) (c : RequestContext) : Prop :=
  s.cancelled c.cancellation = false ∧ s.channels c.responseChannel = .fresh

/-- Cancelled, and answered exactly once on its own channel. -/
def Answered (s : Service) (c : RequestContext) : Prop :=
  s.cancelled c.cancellation = true ∧ ∃ r, (s.channels c.responseChannel).Answered r

theorem takeIf_some {α : Type} {p : α → Bool} {o rest : Option α} {a : α}
    (h : takeIf p o = (some a, rest)) : o = some a ∧ p a = true ∧ rest = none := by
  cases o with
  | none => cases h
  | some b =>
    simp only [takeIf] at h
    by_cases hp : p b = true
    · rw [if_pos hp] at h
      cases h
      exact ⟨rfl, hp, rfl⟩
    · rw [if_neg hp] at h
      cases h

end Service

namespace Tasks

theorem leave_service (s : Tasks) (h : Holder) : (s.leave h).service = s.service := by
  cases h with
  | canceller => rfl
  | stream sid => simp only [leave]; split <;> rfl

theorem leave_nextChannel (s : Tasks) (h : Holder) : (s.leave h).nextChannel = s.nextChannel := by
  cases h with
  | canceller => rfl
  | stream sid => simp only [leave]; split <;> rfl

/-! ### What a step can do -/

inductive SlotMove (s : Tasks) (l : Label) (t : Tasks) : Prop where
  | same (service : t.service = s.service) (lock : t.lock = s.lock)
      (nextChannel : t.nextChannel = s.nextChannel)
  | init (request : CredentialRequest) (requestId : RequestId)
      (label : l = .init request requestId) (free : s.lock = none)
      (service : t.service = (s.service.initRequest request s.nextChannel requestId).2)
      (lock : t.lock = none) (nextChannel : t.nextChannel = s.nextChannel + 1)
  | taken (h : Holder) (c : RequestContext) (response : Response) (free : s.lock = none)
      (ctx : s.service.ctx = some c) (service : t.service = s.service.setCtx none)
      (lock : t.lock = some (h, .cancelToken c response))
      (nextChannel : t.nextChannel = s.nextChannel)
  | worked (h : Holder) (x : Section) (held : s.lock = some (h, x))
      (service : t.service = x.effect s.service) (lock : t.lock = x.next.map fun y => (h, y))
      (nextChannel : t.nextChannel = s.nextChannel)

theorem init_some {s t : Tasks} {request : CredentialRequest} {requestId : RequestId}
    (h : step s (.init request requestId) = some t) :
    s.lock = none ∧ t = { s with
      service := (s.service.initRequest request s.nextChannel requestId).2
      nextChannel := s.nextChannel + 1 } := by
  simp only [step] at h
  split at h
  · cases h
    exact ⟨‹_›, rfl⟩
  · cases h

theorem cancel_some {s t : Tasks} {requestId : RequestId}
    (h : step s (.cancel requestId) = some t) :
    s.lock = none ∧
      ((∃ c, s.service.ctx = some c ∧ c.requestId = requestId ∧
          t = s.takeContext .canceller c (Service.cancelResponse requestId)) ∨
        (t = s ∧ ∀ c, s.service.ctx = some c → c.requestId ≠ requestId)) := by
  simp only [step] at h
  split at h
  · rename_i c rest hlock htake
    obtain ⟨hctx, hid, -⟩ := Service.takeIf_some htake
    have hid' : c.requestId = requestId := eq_of_beq hid
    subst hid'
    simp only [beq_self_eq_true, if_true] at h
    cases h
    exact ⟨hlock, Or.inl ⟨c, hctx, rfl, rfl⟩⟩
  · rename_i rest hlock htake
    cases h
    refine ⟨hlock, Or.inr ⟨rfl, ?_⟩⟩
    intro c hctx hid
    rw [hctx] at htake
    simp [Service.takeIf, hid] at htake
  · cases h

theorem start_some {s t : Tasks} {kind : StreamKind} (h : step s (.start kind) = some t) :
    ∃ c, s.lock = none ∧ s.service.ctx = some c ∧
      t = { s.setStream s.nextStream ⟨kind, c.cancellation, .idle⟩ with
        nextStream := s.nextStream + 1 } := by
  simp only [step] at h
  split at h
  · rename_i c hlock hget
    cases h
    refine ⟨c, hlock, ?_, rfl⟩
    unfold Service.getCredential at hget
    split at hget
    · cases hget
      assumption
    · cases hget
  · cases h

theorem take_some {s t : Tasks} {sid : Nat} (h : step s (.take sid) = some t) :
    ∃ kind token e, s.streams sid = some ⟨kind, token, .passed e⟩ ∧
      (t = s.setStream sid ⟨kind, token, .done e⟩ ∧
          (e.completion = none ∨ s.lock = none ∧ s.service.ctx = none) ∨
        ∃ response c, e.completion = some response ∧ s.lock = none ∧ s.service.ctx = some c ∧
          t = (s.setStream sid ⟨kind, token, .completing e⟩).takeContext (.stream sid) c
            response) := by
  simp only [step] at h
  split at h
  · rename_i kind token e hstream
    refine ⟨kind, token, e, hstream, ?_⟩
    split at h
    · rename_i hnone
      cases h
      exact Or.inl ⟨rfl, Or.inl hnone⟩
    · rename_i response hsome
      split at h
      · rename_i c hlock hctx
        cases h
        exact Or.inr ⟨response, c, hsome, hlock, hctx, rfl⟩
      · rename_i hlock hctx
        cases h
        exact Or.inl ⟨rfl, Or.inr ⟨hlock, hctx⟩⟩
      · cases h
  · cases h

theorem advance_some {s t : Tasks} (h : step s .advance = some t) :
    ∃ holder x, s.lock = some (holder, x) ∧ t.service = x.effect s.service ∧
      t.lock = x.next.map (fun y => (holder, y)) ∧ t.nextChannel = s.nextChannel ∧
      t.nextStream = s.nextStream := by
  simp only [step] at h
  split at h
  · rename_i holder x hlock
    refine ⟨holder, x, hlock, ?_⟩
    cases x with
    | cancelToken c response =>
      cases h
      exact ⟨rfl, rfl, rfl, rfl⟩
    | sendResponse c response =>
      cases h
      exact ⟨rfl, rfl, rfl, rfl⟩
    | unlock =>
      cases h
      refine ⟨leave_service s holder, rfl, leave_nextChannel s holder, ?_⟩
      cases holder with
      | canceller => rfl
      | stream sid => simp only [leave]; split <;> rfl
  · cases h

theorem poll_some {s t : Tasks} {l : Label} {sid : Nat}
    (hl : (∃ e, l = .event sid e) ∨ l = .check sid ∨ l = .finish sid) (h : step s l = some t) :
    ∃ kind token pc pc', s.streams sid = some ⟨kind, token, pc⟩ ∧
      t = s.setStream sid ⟨kind, token, pc'⟩ := by
  rcases hl with ⟨e, rfl⟩ | rfl | rfl
  · simp only [step] at h
    split at h
    · split at h
      · cases h
        exact ⟨_, _, _, _, ‹_›, rfl⟩
      · cases h
    · cases h
  · simp only [step] at h
    split at h
    · split at h
      · cases h
        exact ⟨_, _, _, _, ‹_›, rfl⟩
      · cases h
        exact ⟨_, _, _, _, ‹_›, rfl⟩
    · cases h
  · simp only [step] at h
    split at h
    · cases h
      exact ⟨_, _, _, _, ‹_›, rfl⟩
    · cases h

theorem slotMove_of_step {s t : Tasks} {l : Label} (h : step s l = some t) : SlotMove s l t := by
  have hpoll : ∀ sid, ((∃ e, l = .event sid e) ∨ l = .check sid ∨ l = .finish sid) →
      SlotMove s l t := by
    intro sid hl
    obtain ⟨kind, token, pc, pc', -, rfl⟩ := poll_some hl h
    exact .same rfl rfl rfl
  cases l with
  | init request requestId =>
    obtain ⟨hfree, rfl⟩ := init_some h
    exact .init request requestId rfl hfree rfl hfree rfl
  | cancel requestId =>
    obtain ⟨hfree, ⟨c, hctx, -, rfl⟩ | ⟨rfl, -⟩⟩ := cancel_some h
    · exact .taken .canceller c _ hfree hctx rfl rfl rfl
    · exact .same rfl rfl rfl
  | start kind =>
    obtain ⟨c, -, -, rfl⟩ := start_some h
    exact .same rfl rfl rfl
  | event sid e => exact hpoll sid (Or.inl ⟨e, rfl⟩)
  | check sid => exact hpoll sid (Or.inr (Or.inl rfl))
  | take sid =>
    obtain ⟨kind, token, e, -, ⟨rfl, -⟩ | ⟨response, c, -, hfree, hctx, rfl⟩⟩ := take_some h
    · exact .same rfl rfl rfl
    · exact .taken (.stream sid) c response hfree hctx rfl rfl rfl
  | advance =>
    obtain ⟨holder, x, hheld, hservice, hlock, hchannel, -⟩ := advance_some h
    exact .worked holder x hheld hservice hlock hchannel
  | finish sid => exact hpoll sid (Or.inr (Or.inr rfl))

/-! ### The invariant of the slot -/

def SectionOk (v : Service) : Section → Prop
  | .cancelToken c _ => c ∈ v.accepted ∧ v.Live c
  | .sendResponse c _ =>
      c ∈ v.accepted ∧ v.cancelled c.cancellation = true ∧ v.channels c.responseChannel = .fresh
  | .unlock => True

structure SlotInv (v : Service) (lock : Option (Holder × Section)) (n : Nat) : Prop where
  named : ∀ (i : Nat) (c : RequestContext), v.accepted[i]? = some c → c.cancellation = i
  channelLt : ∀ c ∈ v.accepted, c.responseChannel < n
  channelInj : ∀ c ∈ v.accepted, ∀ d ∈ v.accepted, c.responseChannel = d.responseChannel → c = d
  tokenFresh : ∀ t, v.accepted.length ≤ t → v.cancelled t = false
  channelFresh : ∀ m, n ≤ m → v.channels m = .fresh
  slot : ∀ c, v.ctx = some c → c ∈ v.accepted ∧ v.Live c
  held : ∀ h x, lock = some (h, x) → v.ctx = none ∧ SectionOk v x
  gone : ∀ c ∈ v.accepted, v.ctx ≠ some c → (∀ h x, lock = some (h, x) → x.context ≠ some c) →
    v.Answered c

theorem SlotInv.getElem_token {v : Service} {lock : Option (Holder × Section)} {n : Nat}
    (h : SlotInv v lock n) {c : RequestContext} (hc : c ∈ v.accepted) :
    v.accepted[c.cancellation]? = some c := by
  obtain ⟨i, hi⟩ := List.mem_iff_getElem?.mp hc
  rw [h.named i c hi]
  exact hi

theorem SlotInv.token_ne {v : Service} {lock : Option (Holder × Section)} {n : Nat}
    (h : SlotInv v lock n) {c d : RequestContext} (hc : c ∈ v.accepted) (hd : d ∈ v.accepted)
    (hne : c ≠ d) : c.cancellation ≠ d.cancellation := by
  intro he
  have h1 := h.getElem_token hc
  rw [he, h.getElem_token hd] at h1
  exact hne (Option.some.inj h1).symm

theorem SlotInv.token_lt {v : Service} {lock : Option (Holder × Section)} {n : Nat}
    (h : SlotInv v lock n) {c : RequestContext} (hc : c ∈ v.accepted) :
    c.cancellation < v.accepted.length :=
  (List.getElem?_eq_some_iff.mp (h.getElem_token hc)).1

theorem slotInv_init : SlotInv Service.new none 0 where
  named := by intro i c hc; cases hc
  channelLt := by intro c hc; cases hc
  channelInj := by intro c hc; cases hc
  tokenFresh := by intro t _; rfl
  channelFresh := by intro m _; rfl
  slot := by intro c hc; cases hc
  held := by intro h x hh; cases hh
  gone := by intro c hc; cases hc

theorem SlotInv.refused {v : Service} {n : Nat} (h : SlotInv v none n) :
    SlotInv (v.dropSender n) none (n + 1) := by
  have hold : ∀ c ∈ v.accepted, (v.dropSender n).channels c.responseChannel =
      v.channels c.responseChannel := by
    intro c hc
    exact v.dropSender_other (Nat.ne_of_lt (h.channelLt c hc))
  constructor
  · exact h.named
  · exact fun c hc => Nat.lt_succ_of_lt (h.channelLt c hc)
  · exact h.channelInj
  · exact h.tokenFresh
  · intro m hm
    rw [v.dropSender_other (by omega)]
    exact h.channelFresh m (by omega)
  · intro c hc
    obtain ⟨hm, ht, hf⟩ := h.slot c hc
    exact ⟨hm, ht, (hold c hm).trans hf⟩
  · intro holder x hh
    cases hh
  · intro c hc hctx hlock
    obtain ⟨ht, r, hr⟩ := h.gone c hc hctx (by intro _ _ hh; cases hh)
    refine ⟨ht, r, ?_⟩
    rw [hold c hc]
    exact hr

theorem SlotInv.accepted {v : Service} {n : Nat} (h : SlotInv v none n) (hctx : v.ctx = none)
    (request : CredentialRequest) (requestId : RequestId) :
    SlotInv (v.initRequest request n requestId).2 none (n + 1) := by
  have hnew : (v.initRequest request n requestId).2 =
      { v with
        ctx := some ⟨request, n, requestId, v.accepted.length⟩
        accepted := v.accepted ++ [⟨request, n, requestId, v.accepted.length⟩] } := by
    simp only [Service.initRequest, hctx]
  rw [hnew]
  generalize hd : (⟨request, n, requestId, v.accepted.length⟩ : RequestContext) = d
  have hdtoken : d.cancellation = v.accepted.length := by rw [← hd]
  have hdchannel : d.responseChannel = n := by rw [← hd]
  have hmem : ∀ c, c ∈ v.accepted ++ [d] → c ∈ v.accepted ∨ c = d := by
    intro c hc
    rcases List.mem_append.mp hc with hc | hc
    · exact Or.inl hc
    · exact Or.inr (List.mem_singleton.mp hc)
  constructor
  · intro i c hc
    rw [List.getElem?_append] at hc
    split at hc
    · exact h.named i c hc
    · rename_i hi
      obtain ⟨hlt, he⟩ := List.getElem?_eq_some_iff.mp hc
      rw [← he, List.getElem_singleton, hdtoken]
      rw [List.length_singleton] at hlt
      omega
  · intro c hc
    rcases hmem c hc with hc | hc
    · exact Nat.lt_succ_of_lt (h.channelLt c hc)
    · rw [hc, hdchannel]
      exact Nat.lt_succ_self n
  · intro c hc e he heq
    rcases hmem c hc with hc | hc
    · rcases hmem e he with he | he
      · exact h.channelInj c hc e he heq
      · have hlt := h.channelLt c hc
        rw [heq, he, hdchannel] at hlt
        exact absurd hlt (Nat.lt_irrefl n)
    · rcases hmem e he with he | he
      · have hlt := h.channelLt e he
        rw [← heq, hc, hdchannel] at hlt
        exact absurd hlt (Nat.lt_irrefl n)
      · rw [hc, he]
  · intro t ht
    simp only [List.length_append, List.length_singleton] at ht
    exact h.tokenFresh t (by omega)
  · exact fun m hm => h.channelFresh m (by omega)
  · intro c hc
    cases hc
    refine ⟨List.mem_append_right _ (List.mem_singleton.mpr rfl), ?_, ?_⟩
    · exact h.tokenFresh _ (by omega)
    · exact h.channelFresh _ (by omega)
  · intro holder x hh
    cases hh
  · intro c hc hne hlock
    rcases hmem c hc with hc | hc
    · exact h.gone c hc (by rw [hctx]; exact nofun) (by intro _ _ hh; cases hh)
    · exact absurd (by rw [hc]) hne

theorem SlotInv.take {v : Service} {n : Nat} (h : SlotInv v none n) {c : RequestContext}
    (hctx : v.ctx = some c) (holder : Holder) (response : Response) :
    SlotInv (v.setCtx none) (some (holder, .cancelToken c response)) n := by
  constructor
  · exact h.named
  · exact h.channelLt
  · exact h.channelInj
  · exact h.tokenFresh
  · exact h.channelFresh
  · intro d hd
    cases hd
  · intro holder' x hh
    cases hh
    exact ⟨rfl, h.slot c hctx⟩
  · intro d hd hne hlock
    refine h.gone d hd ?_ (by intro _ _ hh; cases hh)
    rw [hctx]
    exact hlock holder _ rfl

theorem SlotInv.cancelToken {v : Service} {n : Nat} {holder : Holder} {c : RequestContext}
    {response : Response} (h : SlotInv v (some (holder, .cancelToken c response)) n) :
    SlotInv (v.cancel c.cancellation) (some (holder, .sendResponse c response)) n := by
  obtain ⟨hctx, hc, -, hfresh⟩ := h.held holder _ rfl
  have hlt := h.token_lt hc
  constructor
  · exact h.named
  · exact h.channelLt
  · exact h.channelInj
  · intro t ht
    rw [v.cancel_other (by simp only [Service.cancel_accepted] at ht; omega)]
    exact h.tokenFresh t ht
  · exact h.channelFresh
  · intro d hd
    rw [Service.cancel_ctx, hctx] at hd
    cases hd
  · intro holder' x hh
    cases hh
    exact ⟨hctx, hc, v.cancel_self _, hfresh⟩
  · intro d hd hne hlock
    have hdc : d ≠ c := fun he => hlock holder _ rfl (by rw [he]; rfl)
    obtain ⟨ht, hr⟩ := h.gone d hd hne fun h' x' hh => by
      cases hh
      exact fun he => hdc (Option.some.inj he).symm
    exact ⟨by rw [v.cancel_other (h.token_ne hd hc hdc)]; exact ht, hr⟩

theorem SlotInv.sendResponse {v : Service} {n : Nat} {holder : Holder} {c : RequestContext}
    {response : Response} (h : SlotInv v (some (holder, .sendResponse c response)) n) :
    SlotInv (v.send c.responseChannel response) (some (holder, .unlock)) n := by
  obtain ⟨hctx, hc, hcancelled, hfresh⟩ := h.held holder _ rfl
  have hlt := h.channelLt c hc
  constructor
  · exact h.named
  · exact h.channelLt
  · exact h.channelInj
  · exact h.tokenFresh
  · intro m hm
    rw [v.send_other _ (by omega)]
    exact h.channelFresh m hm
  · intro d hd
    rw [Service.send_ctx, hctx] at hd
    cases hd
  · intro holder' x hh
    cases hh
    exact ⟨hctx, trivial⟩
  · intro d hd hne hlock
    by_cases hdc : d = c
    · subst hdc
      refine ⟨hcancelled, response, ?_⟩
      rw [v.send_self, hfresh]
      exact Oneshot.send_fresh response
    · obtain ⟨ht, r, hr⟩ := h.gone d hd hne fun h' x' hh => by
        cases hh
        exact fun he => hdc (Option.some.inj he).symm
      refine ⟨ht, r, ?_⟩
      rw [v.send_other _ fun he => hdc (h.channelInj d hd c hc he)]
      exact hr

theorem SlotInv.unlock {v : Service} {n : Nat} {holder : Holder}
    (h : SlotInv v (some (holder, .unlock)) n) : SlotInv v none n := by
  obtain ⟨hctx, -⟩ := h.held holder _ rfl
  refine ⟨h.named, h.channelLt, h.channelInj, h.tokenFresh, h.channelFresh, h.slot, ?_, ?_⟩
  · intro holder' x hh
    cases hh
  · intro d hd hne hlock
    exact h.gone d hd hne fun h' x' hh => by
      cases hh
      exact nofun

structure Inv (s : Tasks) : Prop where
  slotInv : SlotInv s.service s.lock s.nextChannel
  streamToken : ∀ sid t, s.streams sid = some t → t.token < s.service.accepted.length

theorem inv_init : Inv init := ⟨slotInv_init, by intro sid t h; cases h⟩

theorem SlotMove.slotInv {s t : Tasks} {l : Label} (m : SlotMove s l t)
    (h : SlotInv s.service s.lock s.nextChannel) : SlotInv t.service t.lock t.nextChannel := by
  cases m with
  | same service lock nextChannel =>
    rw [service, lock, nextChannel]
    exact h
  | init request requestId label free service lock nextChannel =>
    rw [service, lock, nextChannel]
    rw [free] at h
    cases hctx : s.service.ctx with
    | none => exact h.accepted hctx request requestId
    | some c =>
      have hrefused : (s.service.initRequest request s.nextChannel requestId).2 =
          s.service.dropSender s.nextChannel := by simp only [Service.initRequest, hctx]
      rw [hrefused]
      exact h.refused
  | taken holder c response free ctx service lock nextChannel =>
    rw [service, lock, nextChannel]
    rw [free] at h
    exact h.take ctx holder response
  | worked holder x held service lock nextChannel =>
    rw [service, lock, nextChannel]
    rw [held] at h
    cases x with
    | cancelToken c response => exact h.cancelToken
    | sendResponse c response => exact h.sendResponse
    | unlock => exact h.unlock

theorem SlotMove.accepted {s t : Tasks} {l : Label} (m : SlotMove s l t) :
    t.service.accepted = s.service.accepted ∨
      ∃ c, t.service.accepted = s.service.accepted ++ [c] := by
  cases m with
  | same service => exact Or.inl (by rw [service])
  | init request requestId label free service =>
    cases hctx : s.service.ctx with
    | none => exact Or.inr ⟨_, by rw [service, Service.initRequest, hctx]⟩
    | some c => exact Or.inl (by rw [service, Service.initRequest, hctx]; rfl)
  | taken holder c response free ctx service => exact Or.inl (by rw [service]; rfl)
  | worked holder x held service =>
    left
    rw [service]
    cases x <;> rfl

theorem SlotMove.quiet {s t : Tasks} {l : Label} (m : SlotMove s l t)
    (h : ∀ request requestId, l ≠ .init request requestId) :
    t.service.accepted = s.service.accepted ∧
      (t.service.ctx = s.service.ctx ∨ t.service.ctx = none) := by
  cases m with
  | same service => exact ⟨by rw [service], Or.inl (by rw [service])⟩
  | init request requestId label => exact absurd label (h request requestId)
  | taken holder c response free ctx service =>
    exact ⟨by rw [service]; rfl, Or.inr (by rw [service]; rfl)⟩
  | worked holder x held service =>
    rw [service]
    cases x with
    | cancelToken c response => exact ⟨rfl, Or.inl rfl⟩
    | sendResponse c response => exact ⟨rfl, Or.inl rfl⟩
    | unlock => exact ⟨rfl, Or.inl rfl⟩

theorem SlotMove.mem_accepted {s t : Tasks} {l : Label} (m : SlotMove s l t) {c : RequestContext}
    (hc : c ∈ s.service.accepted) : c ∈ t.service.accepted := by
  rcases m.accepted with h | ⟨d, h⟩
  · rw [h]
    exact hc
  · rw [h]
    exact List.mem_append_left _ hc

theorem setStream_streams {s : Tasks} {sid sid' : Nat} {t u : StreamTask}
    (h : (s.setStream sid t).streams sid' = some u) :
    sid' = sid ∧ u = t ∨ s.streams sid' = some u := by
  simp only [setStream, Function.update_apply] at h
  split at h
  · cases h
    exact Or.inl ⟨‹_›, rfl⟩
  · exact Or.inr h

theorem streamToken_of_step {s t : Tasks} {l : Label} (h : step s l = some t) {sid : Nat}
    {u : StreamTask} (hu : t.streams sid = some u) :
    (∃ u', s.streams sid = some u' ∧ u'.token = u.token) ∨
      ∃ c, s.service.ctx = some c ∧ u.token = c.cancellation := by
  have hkept : ∀ {kind token pc pc'}, s.streams sid = some ⟨kind, token, pc⟩ →
      u = ⟨kind, token, pc'⟩ → ∃ u', s.streams sid = some u' ∧ u'.token = u.token := by
    intro kind token pc pc' hs he
    exact ⟨_, hs, by rw [he]⟩
  have hpoll : ∀ sid', ((∃ e, l = .event sid' e) ∨ l = .check sid' ∨ l = .finish sid') →
      ∃ u', s.streams sid = some u' ∧ u'.token = u.token := by
    intro sid' hl
    obtain ⟨kind, token, pc, pc', hs, rfl⟩ := poll_some hl h
    rcases setStream_streams hu with ⟨rfl, he⟩ | hold
    · exact hkept hs he
    · exact ⟨u, hold, rfl⟩
  cases l with
  | init request requestId =>
    obtain ⟨-, rfl⟩ := init_some h
    exact Or.inl ⟨u, hu, rfl⟩
  | cancel requestId =>
    obtain ⟨-, ⟨c, -, -, rfl⟩ | ⟨rfl, -⟩⟩ := cancel_some h
    · exact Or.inl ⟨u, hu, rfl⟩
    · exact Or.inl ⟨u, hu, rfl⟩
  | start kind =>
    obtain ⟨c, -, hctx, rfl⟩ := start_some h
    rcases setStream_streams (s := s) (t := ⟨kind, c.cancellation, .idle⟩) hu with ⟨-, he⟩ | hold
    · exact Or.inr ⟨c, hctx, by rw [he]⟩
    · exact Or.inl ⟨u, hold, rfl⟩
  | event sid' e => exact Or.inl (hpoll sid' (Or.inl ⟨e, rfl⟩))
  | check sid' => exact Or.inl (hpoll sid' (Or.inr (Or.inl rfl)))
  | finish sid' => exact Or.inl (hpoll sid' (Or.inr (Or.inr rfl)))
  | take sid' =>
    left
    obtain ⟨kind, token, e, hs, ⟨rfl, -⟩ | ⟨response, c, -, -, -, rfl⟩⟩ := take_some h
    · rcases setStream_streams hu with ⟨rfl, he⟩ | hold
      · exact hkept hs he
      · exact ⟨u, hold, rfl⟩
    · rcases setStream_streams (s := s) (t := ⟨kind, token, .completing e⟩) hu
        with ⟨rfl, he⟩ | hold
      · exact hkept hs he
      · exact ⟨u, hold, rfl⟩
  | advance =>
    left
    simp only [step] at h
    split at h
    · rename_i holder x hlock
      split at h
      · cases h
        exact ⟨u, hu, rfl⟩
      · cases h
        cases holder with
        | canceller => exact ⟨u, hu, rfl⟩
        | stream sid' =>
          simp only [leave] at hu
          split at hu
          · rename_i kind token e hs
            rcases setStream_streams hu with ⟨rfl, he⟩ | hold
            · exact hkept hs he
            · exact ⟨u, hold, rfl⟩
          · exact ⟨u, hu, rfl⟩
    · cases h

theorem inv_step {s t : Tasks} {l : Label} (h : Inv s) (hl : step s l = some t) : Inv t := by
  have hmove := slotMove_of_step hl
  have hle : s.service.accepted.length ≤ t.service.accepted.length := by
    rcases hmove.accepted with ha | ⟨c, ha⟩
    · exact Nat.le_of_eq (by rw [ha])
    · rw [ha, List.length_append]
      omega
  refine ⟨hmove.slotInv h.slotInv, ?_⟩
  intro sid u hu
  rcases streamToken_of_step hl hu with ⟨u', hu', htoken⟩ | ⟨c, hctx, htoken⟩
  · have := h.streamToken sid u' hu'
    omega
  · have := h.slotInv.token_lt (h.slotInv.slot c hctx).1
    omega

theorem inv_of_reaches {s : Tasks} (h : Reaches step init s) : Inv s :=
  reaches_invariant (fun _ _ _ hi hl => inv_step hi hl) inv_init h

/-! ### What the slot, the tokens and the channels say -/

theorem Inv.answered {s : Tasks} (h : Inv s) (hfree : s.lock = none) {c : RequestContext}
    (hc : c ∈ s.service.accepted) (hne : s.service.ctx ≠ some c) : s.service.Answered c := by
  refine h.slotInv.gone c hc hne ?_
  intro holder x hheld
  rw [hfree] at hheld
  cases hheld

theorem Inv.ctx_iff {s : Tasks} (h : Inv s) (hfree : s.lock = none) (c : RequestContext) :
    s.service.ctx = some c ↔ c ∈ s.service.accepted ∧ s.service.Live c := by
  constructor
  · exact h.slotInv.slot c
  · rintro ⟨hc, hlive, -⟩
    by_contra hne
    have hcancelled := (h.answered hfree hc hne).1
    rw [hlive] at hcancelled
    cases hcancelled

theorem Inv.ctx_of_uncancelled {s : Tasks} (h : Inv s) (hfree : s.lock = none) {token : Nat}
    (hlt : token < s.service.accepted.length) (hlive : s.service.cancelled token = false) :
    ∃ a, s.service.ctx = some a ∧ a.cancellation = token := by
  have hget : s.service.accepted[token]? = some s.service.accepted[token] :=
    List.getElem?_eq_getElem hlt
  have htoken := h.slotInv.named token _ hget
  refine ⟨s.service.accepted[token], ?_, htoken⟩
  by_contra hne
  have hgone := (h.answered hfree (List.getElem_mem hlt) hne).1
  rw [htoken, hlive] at hgone
  cases hgone

theorem Inv.recv_ne_closed {s : Tasks} (h : Inv s) {c : RequestContext}
    (hc : c ∈ s.service.accepted) : (s.service.channels c.responseChannel).recv ≠ .closed := by
  have hfresh : s.service.channels c.responseChannel = .fresh →
      (s.service.channels c.responseChannel).recv ≠ .closed := by
    intro he
    rw [he]
    exact nofun
  by_cases hctx : s.service.ctx = some c
  · exact hfresh (h.slotInv.slot c hctx).2.2
  by_cases hheld : ∃ holder x, s.lock = some (holder, x) ∧ x.context = some c
  · obtain ⟨holder, x, hlock, hx⟩ := hheld
    have hok := (h.slotInv.held holder x hlock).2
    cases x with
    | cancelToken d response =>
      cases hx
      exact hfresh hok.2.2
    | sendResponse d response =>
      cases hx
      exact hfresh hok.2.2
    | unlock => cases hx
  · obtain ⟨-, r, hr⟩ := h.slotInv.gone c hc hctx fun holder x hlock hx =>
      hheld ⟨holder, x, hlock, hx⟩
    rw [hr.recv]
    exact nofun

end Tasks

theorem Service.initRequest_ok_iff (s : Service) (request : CredentialRequest) (tx : Nat)
    (requestId : RequestId) :
    (∃ granted, (s.initRequest request tx requestId).1 = .ok granted) ↔ s.ctx = none := by
  unfold Service.initRequest
  cases s.ctx with
  | none => exact ⟨fun _ => rfl, fun _ => ⟨_, rfl⟩⟩
  | some c =>
    constructor
    · rintro ⟨granted, h⟩
      cases h
    · nofun

theorem Service.cancelRequest_of_ne (s : Service) (requestId : RequestId)
    (h : ∀ c, s.ctx = some c → c.requestId ≠ requestId) : s.cancelRequest requestId = s := by
  unfold Service.cancelRequest Service.takeIf
  cases hctx : s.ctx with
  | none =>
    simp only [Service.setCtx, ← hctx]
  | some c =>
    simp only [beq_iff_eq, h c hctx, if_false, Service.setCtx, ← hctx]

namespace Tasks

/-- The slot holds exactly the request that is neither cancelled nor answered; every other
accepted request was cancelled and answered once, on its own channel. -/
theorem slot_tracks_requests (ls : List Label) {s : Tasks} (hrun : exec step init ls = some s) :
    (∀ c ∈ s.service.accepted, ∀ d ∈ s.service.accepted,
      c.responseChannel = d.responseChannel → c = d) ∧
    (∀ c ∈ s.service.accepted, (s.service.channels c.responseChannel).recv ≠ .closed) ∧
    (s.lock = none →
      (∀ c, s.service.ctx = some c ↔ c ∈ s.service.accepted ∧ s.service.Live c) ∧
      (∀ c ∈ s.service.accepted, s.service.ctx ≠ some c → s.service.Answered c) ∧
      (∀ request tx requestId,
        (∃ granted, (s.service.initRequest request tx requestId).1 = .ok granted) ↔
          s.service.ctx = none) ∧
      (∀ requestId, (∀ c, s.service.ctx = some c → c.requestId ≠ requestId) →
        s.service.cancelRequest requestId = s.service ∧
          step s (.cancel requestId) = some s)) := by
  have hinv : Inv s := inv_of_reaches ⟨ls, hrun⟩
  refine ⟨hinv.slotInv.channelInj, fun c hc => hinv.recv_ne_closed hc, fun hfree => ?_⟩
  refine ⟨hinv.ctx_iff hfree, fun c hc hne => hinv.answered hfree hc hne, ?_, ?_⟩
  · exact fun request tx requestId => s.service.initRequest_ok_iff request tx requestId
  · intro requestId hne
    refine ⟨s.service.cancelRequest_of_ne requestId hne, ?_⟩
    simp only [step, hfree]
    split
    · rename_i c rest hlock htake
      obtain ⟨hctx, hid, -⟩ := Service.takeIf_some htake
      exact absurd (eq_of_beq hid) (hne c hctx)
    · rfl
    · rename_i hlock
      cases hlock

def sampleRequest (rpId : String) : CredentialRequest :=
  .getPublicKeyCredentialRequest ⟨rpId, "https://" ++ rpId, none, []⟩

def sampleResponse : CredentialResponse := .fromGetAssertion ⟨some ⟨[1]⟩, none, []⟩ "cross-platform"

/- One request, completed over USB while a late cancellation of it arrives. -/
def usbRun : List Label :=
  [.init (sampleRequest "a.test") 7, .start .usb, .event 0 (.usb (.completed sampleResponse)),
    .check 0, .take 0, .advance, .advance, .advance, .cancel 7, .finish 0]

theorem slot_tracks_requests_usb : ∃ s, exec step init usbRun = some s ∧ s.service.ctx = none ∧
    s.service.accepted.length = 1 ∧ ∀ c ∈ s.service.accepted, s.service.Answered c :=
  ⟨_, rfl, rfl, rfl, fun c hc => ((slot_tracks_requests usbRun rfl).2.2 rfl).2.1 c hc nofun⟩

end Tasks

end Credentialsd
