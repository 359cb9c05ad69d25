import Credentialsd.Lib.Machine
import Credentialsd.Lib.Oneshot
import Credentialsd.Lib.Broadcast
import Credentialsd.Lib.Fifo
import Credentialsd.Lib.Chunks
import Credentialsd.Model
import Credentialsd.States
import Credentialsd.Service
import Credentialsd.ServiceTasks
import Credentialsd.ServiceInvariant
import Credentialsd.ServiceRace
import Credentialsd.PollOrder
import Credentialsd.FlowControl
import Credentialsd.FlowInvariant
import Credentialsd.FlowDiscovery
import Credentialsd.FlowRelease
import Credentialsd.FlowExits
import Credentialsd.LoopMoves
import Credentialsd.Prompts
import Credentialsd.Handlers
import Credentialsd.DeviceSelection
import Credentialsd.Process
import Credentialsd.ProcessLive
import Credentialsd.Hybrid
import Credentialsd.HandlersLive
import Credentialsd.SelectionStops
import Credentialsd.ProcessOrder
import Credentialsd.Opening
import Credentialsd.SameOperation
import Credentialsd.Memfd
import Credentialsd.Answers
import Credentialsd.Notifications
import Credentialsd.SessionUpdates
import Credentialsd.WebAuthn
import Credentialsd.Gateway
import Credentialsd.Admission
import Credentialsd.UiService
import Credentialsd.UiRegistry
import Credentialsd.UiSteps
import Credentialsd.UiWellFormed
import Credentialsd.UiLocks
import Credentialsd.UiClosed
import Credentialsd.UiCancel
import Credentialsd.UiCreate
import Credentialsd.Lib.Cbor
import Credentialsd.CborParser
import Credentialsd.CborLoads
import Credentialsd.AuthenticatorData
import Credentialsd.AddOn
import Credentialsd.AddOnReplies
import Credentialsd.NativeHost
import Credentialsd.NativeHostReplies
import Credentialsd.StateUpdates
import Credentialsd.Lib.Base64Url
import Credentialsd.CredentialChoice
import Credentialsd.SelectionEnds
import Credentialsd.Secrets
import Credentialsd.Lib.Labels
import Credentialsd.Origins
import Credentialsd.Lib.Lines
import Credentialsd.Caller
import Credentialsd.Disconnects
import Credentialsd.Lib.CborTree
import Credentialsd.Lib.CborLayout
import Credentialsd.CborReads
import Credentialsd.CborLimit
import Credentialsd.CborExact
import Credentialsd.CborSound
import Credentialsd.PortalRequest
import Credentialsd.Lib.Placeholders
import Credentialsd.ViewModel
import Credentialsd.GuiWindow
import Credentialsd.GuiSession
import Credentialsd.GuiMoves
import Credentialsd.GuiPages
import Credentialsd.GuiScreen
import Credentialsd.GuiChoices
import Credentialsd.GuiEnd
import Credentialsd.GuiSent
import Credentialsd.GuiValues
import Credentialsd.Dialogue
import Credentialsd.DialoguePrompts
import Credentialsd.DialogueAnswers
import Credentialsd.Lib.Js
import Credentialsd.PageCredential
import Credentialsd.Lib.Binascii
import Credentialsd.CreatePasskey
import Credentialsd.PageOptions
import Credentialsd.PortalOperation
import Credentialsd.Extension
import Credentialsd.ExtensionHosts
import Credentialsd.ExtensionReplies
