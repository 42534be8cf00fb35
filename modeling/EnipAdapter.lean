import EnipAdapter.Analysis.SessionCorrelation
import EnipAdapter.Analysis.EventStreamProof
import EnipAdapter.Analysis.StrandedOpen
import EnipAdapter.Analysis.WriteBatch
import EnipAdapter.Analysis.WriteRules
import EnipAdapter.Analysis.PushReference
import EnipAdapter.Analysis.ProducedFrame
import EnipAdapter.Analysis.PushWriteInvariant
import EnipAdapter.Analysis.PushWriteProof
import EnipAdapter.Analysis.OutputImage
import EnipAdapter.Analysis.SequenceAgreement
import EnipAdapter.Analysis.InertDrops
import EnipAdapter.Analysis.OnChangeGate
import EnipAdapter.Analysis.Batching
import EnipAdapter.Analysis.BatchTransparency
import EnipAdapter.Analysis.PausedSilence
import EnipAdapter.Analysis.ReadIsolation
import EnipAdapter.Analysis.ReadReply
import EnipAdapter.Analysis.PackedBools
import EnipAdapter.Analysis.ChunkIndependence
import EnipAdapter.Analysis.RouteOnce
import EnipAdapter.Analysis.BrowseWalk
import EnipAdapter.Analysis.BrowseAdvance
import EnipAdapter.Analysis.StackTotals
import EnipAdapter.Analysis.TranslatorDelivery
import EnipAdapter.Analysis.FrameMetrics
import EnipAdapter.Analysis.ReconnectLadder
import EnipAdapter.Analysis.ReloadRuns
import EnipAdapter.Analysis.OrphanAlarms
import EnipAdapter.Analysis.EncapRoundTrip
import EnipAdapter.Analysis.WriteFits
import EnipAdapter.Analysis.StagingVerdicts
import EnipAdapter.Analysis.RenewalReconnect
import EnipAdapter.Analysis.WriteBackPair
import EnipAdapter.Analysis.AssemblyWrite
import EnipAdapter.Analysis.ProduceSchedule
import EnipAdapter.Analysis.EventQueueRuns
import EnipAdapter.Analysis.TagPathGrammar
import EnipAdapter.Analysis.PathUnambiguity
import EnipAdapter.Analysis.PollSchedule
import EnipAdapter.Analysis.ReadThenWrite
import EnipAdapter.Analysis.TransformSpelling
import EnipAdapter.Analysis.EveryChange
import EnipAdapter.Analysis.BoolArrays
import EnipAdapter.Analysis.CursorFollow
import EnipAdapter.Analysis.ConnectionSize
import EnipAdapter.Analysis.GroupMembership
import EnipAdapter.Analysis.CertificateExpiry
import EnipAdapter.Analysis.SessionOpening
import EnipAdapter.Analysis.SessionLiveness
import EnipAdapter.Analysis.ConnectedSequence
import EnipAdapter.Analysis.KeepaliveTiming
import EnipAdapter.Analysis.ConnectionLoss
import EnipAdapter.Analysis.LinkTruth
import EnipAdapter.Analysis.RetryBackoff
import EnipAdapter.Analysis.SignalInventory
import EnipAdapter.Analysis.DeviceIdentity
import EnipAdapter.Analysis.RepollAnnounced
import EnipAdapter.Analysis.MetricTotals
