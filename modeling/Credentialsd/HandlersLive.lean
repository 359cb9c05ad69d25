import Credentialsd.ProcessLive
import Credentialsd.Hybrid

/-!
# No handler is left without a result

The runs of the three handlers, each from its start: a request that is neither
cancelled nor abandoned is not left stuck as long as no step loses the outcome.
-/

namespace Credentialsd

theorem Process.run_not_stuck {S M D F : Type} (h : Handler S M D F) (c : Ceremony)
    (ls : List (Process.Label F)) (t : Process S M D)
    (hgoes : ∀ l ∈ ls, l.disturbs = false) (hopens : ∀ l ∈ ls, l.failsToOpen = false)
    (hrun : Machine.exec (Process.step h c) (Process.init h) ls = some t) :
    ¬ Process.Stuck h t := by
  suffices hlive : Process.Live h t from hlive.not_stuck h
  refine Machine.exec_invariant (C := fun _ l _ => l.disturbs = false ∧ l.failsToOpen = false)
    (fun s l u hl hc hstep => Process.step_live h c hl hstep hc.1 hc.2) (Process.init_live h)
    (Machine.along_of_forall fun l hl => ⟨hgoes l hl, hopens l hl⟩) hrun

theorem Hybrid.run_not_stuck (c : Ceremony) (ls : List Hybrid.Label) (t : Hybrid)
    (hgoes : ∀ l ∈ ls, l.disturbs = false)
    (hkeeps : Machine.Along (Hybrid.step c) (fun s l _ => s.loses l = false) Hybrid.init ls)
    (hrun : Machine.exec (Hybrid.step c) Hybrid.init ls = some t) : ¬ t.Stuck := by
  suffices hlive : t.Live from hlive.not_stuck
  refine Machine.exec_invariant
    (C := fun s l _ => l.disturbs = false ∧ s.loses l = false)
    (fun s l u hl hc hstep => Hybrid.step_live hl hstep hc.1 hc.2) Hybrid.init_live
    (Machine.along_and (Machine.along_of_forall hgoes) hkeeps) hrun

/-- No handler of a request that is neither cancelled nor abandoned gets stuck: USB and NFC unless
the channel to the device cannot be opened, hybrid unless there is no QR code, no channel to the
phone, or an empty list of assertions and no failure besides. -/
theorem handlers_reach_an_end (credHash : Bytes → String) (c : Ceremony) :
    (∀ ls t, (∀ l ∈ ls, l.disturbs = false) → (∀ l ∈ ls, l.failsToOpen = false) →
      Machine.exec (Process.step (Usb.handler credHash) c)
        (Process.init (Usb.handler credHash)) ls = some t →
      ¬ Process.Stuck (Usb.handler credHash) t) ∧
    (∀ ls t, (∀ l ∈ ls, l.disturbs = false) → (∀ l ∈ ls, l.failsToOpen = false) →
      Machine.exec (Process.step (Nfc.handler credHash) c)
        (Process.init (Nfc.handler credHash)) ls = some t →
      ¬ Process.Stuck (Nfc.handler credHash) t) ∧
    (∀ ls t, (∀ l ∈ ls, l.disturbs = false) →
      Machine.Along (Hybrid.step c) (fun s l _ => s.loses l = false) Hybrid.init ls →
      Machine.exec (Hybrid.step c) Hybrid.init ls = some t → ¬ t.Stuck) :=
  ⟨Process.run_not_stuck (Usb.handler credHash) c, Process.run_not_stuck (Nfc.handler credHash) c,
    Hybrid.run_not_stuck c⟩

/-! ### Runs -/

def sampleCeremony : Ceremony where
  request := .getPublicKeyCredentialRequest ⟨"example.com", "https://example.com", none, []⟩
  isRetryableUserError _ := false
  uxCapacity := 16

def usbSelected : List (Process.Label (List HidDevice)) :=
  [.listed (.ok [⟨"/dev/hidraw0"⟩]), .emit, .select (.opened 0 true), .select (.register 0),
    .select .collect, .select .collect, .select (.blinked 0 (.ok true)), .select (.notify 0),
    .select .receive, .selected, .emit]

def sampleAssertion : Assertion := ⟨some ⟨[1]⟩, none, []⟩

def usbCompleted : List (Process.Label (List HidDevice)) :=
  usbSelected ++ [.opened true, .update (.pinRequired (some 8)), .recvUpdate, .relay, .interact,
    .emit, .take, .take, .take, .pin (some "1234"),
    .answered (.ok (.credentialsAsserted ⟨[sampleAssertion]⟩)), .respond, .interact, .emit]

def nfcCompleted : List (Process.Label (Option NfcDevice)) :=
  [.listed (.ok (some ⟨"tag"⟩)), .emit, .opened true,
    .answered (.ok (.credentialsAsserted ⟨[sampleAssertion]⟩)), .respond, .interact, .emit]

def hybridCompleted : List Hybrid.Label :=
  [.created (.ok "FIDO:/1"), .sendInit, .opened true,
    .answered (.ok (.credentialsAsserted ⟨[sampleAssertion]⟩)), .sendTerminal, .recvUpdate]

theorem handlers_reach_an_end_sample :
    (∃ t, Machine.exec (Process.step (Usb.handler fun _ => "") sampleCeremony)
        (Process.init (Usb.handler fun _ => "")) usbCompleted = some t ∧
      ¬ Process.Stuck (Usb.handler fun _ => "") t) ∧
    (∃ t, Machine.exec (Process.step (Nfc.handler fun _ => "") sampleCeremony)
        (Process.init (Nfc.handler fun _ => "")) nfcCompleted = some t ∧
      ¬ Process.Stuck (Nfc.handler fun _ => "") t) ∧
    (∃ t, Machine.exec (Hybrid.step sampleCeremony) Hybrid.init hybridCompleted = some t ∧
      ¬ t.Stuck) := by
  obtain ⟨husb, hnfc, hhybrid⟩ := handlers_reach_an_end (fun _ => "") sampleCeremony
  exact ⟨⟨_, rfl, husb usbCompleted _ (by decide) (by decide) rfl⟩,
    ⟨_, rfl, hnfc nfcCompleted _ (by decide) (by decide) rfl⟩,
    ⟨_, rfl, hhybrid hybridCompleted _ (by decide) (by decide) rfl⟩⟩

/-- A failed open leaves the loop waiting for itself; the hybrid handler ends without a word. -/
theorem lost_outcomes_strand :
    (∃ t, Machine.exec (Process.step (Usb.handler fun _ => "") sampleCeremony)
        (Process.init (Usb.handler fun _ => "")) (usbSelected ++ [.opened false]) = some t ∧
      Process.Stuck (Usb.handler fun _ => "") t) ∧
    (∃ t, Machine.exec (Process.step (Nfc.handler fun _ => "") sampleCeremony)
        (Process.init (Nfc.handler fun _ => ""))
        [.listed (.ok (some ⟨"tag"⟩)), .emit, .opened false] = some t ∧
      Process.Stuck (Nfc.handler fun _ => "") t) ∧
    (∃ t, Machine.exec (Hybrid.step sampleCeremony) Hybrid.init [.created (.error "")] = some t ∧
      t.Stuck) ∧
    (∃ t, Machine.exec (Hybrid.step sampleCeremony) Hybrid.init
        [.created (.ok "FIDO:/1"), .sendInit, .opened false] = some t ∧ t.Stuck) ∧
    (∃ t, Machine.exec (Hybrid.step sampleCeremony) Hybrid.init
        [.created (.ok "FIDO:/1"), .sendInit, .opened true,
          .answered (.ok (.credentialsAsserted ⟨[]⟩)), .recvUpdate] = some t ∧ t.Stuck) := by
  exact ⟨⟨_, rfl, Process.stuck_of_forsaken _ rfl rfl rfl rfl rfl rfl⟩,
    ⟨_, rfl, Process.stuck_of_forsaken _ rfl rfl rfl rfl rfl rfl⟩,
    ⟨_, rfl, rfl, rfl, rfl, rfl⟩, ⟨_, rfl, rfl, rfl, rfl, rfl⟩, ⟨_, rfl, rfl, rfl, rfl, rfl⟩⟩

end Credentialsd
