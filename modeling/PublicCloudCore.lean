import PublicCloudCore.CorekubeDb.NonInterference
import PublicCloudCore.CorekubeDb.MainWorker
import PublicCloudCore.CorekubeDb.Interleaving
import PublicCloudCore.CorekubeDb.EnbRegistry
import PublicCloudCore.CorekubeDb.IdentityCoherence
import PublicCloudCore.Worker.Pairing
import PublicCloudCore.Worker.NasSecurity
import PublicCloudCore.CorekubeDb.ImsiLookup
import PublicCloudCore.Framework.Transport
import PublicCloudCore.Frontend.Messages
import PublicCloudCore.Framework.SlotTable
import PublicCloudCore.Frontend.Threads
import PublicCloudCore.Frontend.Routing
import PublicCloudCore.Frontend.DownlinkThreads
import PublicCloudCore.Worker.Messages
import PublicCloudCore.Worker.NasCodec
import PublicCloudCore.Worker.NasHandlers
import PublicCloudCore.Worker.NgapHandlers
import PublicCloudCore.Worker.HandlerSpecs
import PublicCloudCore.Worker.ResponseSlots
import PublicCloudCore.Worker.Isolation
import PublicCloudCore.CorekubeDb.PdnAddress
import PublicCloudCore.RanController.UE
import PublicCloudCore.RanEmulator.ControllerMsg
import PublicCloudCore.RanEmulator.UeRoundTrip
import PublicCloudCore.Yagra.Aggregation
import PublicCloudCore.RanController.UserInput
import PublicCloudCore.RanEmulator.ControlPlane
import PublicCloudCore.RanEmulator.Scripts
import PublicCloudCore.RanEmulator.EnbEmulator
import PublicCloudCore.RanEmulator.EnbSafety
import PublicCloudCore.Framework.Handout
import PublicCloudCore.RanController.AnalyzeMsg
import PublicCloudCore.RanController.Roles
import PublicCloudCore.MetricsBus.Stod
import PublicCloudCore.MetricsBus.ThreadWorker
import PublicCloudCore.MetricsBus.Survival
import PublicCloudCore.Yagra.Frames
import PublicCloudCore.MetricsBus.YagraRoundTrip
import PublicCloudCore.Worker.MobileIdentity
import PublicCloudCore.RanEmulator.Handover
import PublicCloudCore.RanEmulator.HandoverSafety
import PublicCloudCore.CorekubeDb.Duplicates
import PublicCloudCore.CorekubeDb.Bounds
import PublicCloudCore.CorekubeDb.UserLine
import PublicCloudCore.CorekubeDb.LoadedRecords
import PublicCloudCore.Worker.CountAgreement
import PublicCloudCore.Multiplexer.Relay
import PublicCloudCore.Multiplexer.Routes
import PublicCloudCore.RanEmulator.MessageNesting
import PublicCloudCore.Worker.CountReuse
import PublicCloudCore.Framework.RunningMean
import PublicCloudCore.Framework.LinkedList
import PublicCloudCore.Yagra.Average
import PublicCloudCore.Yagra.Registry
import PublicCloudCore.Yagra.Sending
import PublicCloudCore.MetricsBus.FrameBounds
import PublicCloudCore.MetricsBus.LabelOrder
import PublicCloudCore.RanEmulator.ScriptValidation
import PublicCloudCore.Framework.Portions
import PublicCloudCore.Framework.Doubles
import PublicCloudCore.RanController.ThreadBudget
import PublicCloudCore.RanController.GenerateData
import PublicCloudCore.Worker.FetchFrame
import PublicCloudCore.Framework.Succession
import PublicCloudCore.Worker.PayloadContainer
import PublicCloudCore.Worker.IntegrityVerdict
import PublicCloudCore.Framework.DoublyLinked
import PublicCloudCore.RanEmulator.ElemList
import PublicCloudCore.RanEmulator.EnbReplies
import PublicCloudCore.RanEmulator.S1apWalk
import PublicCloudCore.RanEmulator.ParserBounds
import PublicCloudCore.RanEmulator.PduSession
import PublicCloudCore.RanEmulator.ListLinks
import PublicCloudCore.Multiplexer.LastWrite
import PublicCloudCore.RanEmulator.RanIds
import PublicCloudCore.RanEmulator.DataPlane
import PublicCloudCore.Framework.Aes
import PublicCloudCore.Framework.Milenage
import PublicCloudCore.CorekubeDb.CryptoTables
import PublicCloudCore.CorekubeDb.Opc
import PublicCloudCore.RanEmulator.Milenage
import PublicCloudCore.Framework.Blocks
import PublicCloudCore.Framework.Sha256
import PublicCloudCore.RanEmulator.Sha256
import PublicCloudCore.RanEmulator.HmacSha256
import PublicCloudCore.RanEmulator.NasProcedures
import PublicCloudCore.RanEmulator.NasCounts
import PublicCloudCore.RanEmulator.UplinkRecord
import PublicCloudCore.Framework.Returning
import PublicCloudCore.Worker.Exchanges
import PublicCloudCore.Worker.FetchedKeys
import PublicCloudCore.Worker.NasSurvival
import PublicCloudCore.Worker.NgapSurvival
import PublicCloudCore.Worker.ProcessMessage
