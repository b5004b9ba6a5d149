import PathMtu.Main
import PathMtu.Random.Predictable
import PathMtu.Session.Run
import PathMtu.Simulator.Journey
import PathMtu.Proofs.SearchRange
import PathMtu.Proofs.Bracketing
import PathMtu.Proofs.Deadline
import PathMtu.Proofs.Publication
import PathMtu.Proofs.History
import PathMtu.Proofs.BoundsOfEvents
import PathMtu.Proofs.Halving
import PathMtu.Proofs.Progress
import PathMtu.Proofs.BinarySearch
import PathMtu.Proofs.ScheduleIndependence
import PathMtu.Proofs.Convergence
import PathMtu.Proofs.ProbeShape
import PathMtu.Proofs.FreshStart
import PathMtu.Proofs.TokenUse
import PathMtu.Proofs.Accounting
import PathMtu.Proofs.Conservation
import PathMtu.Proofs.Indifference
import PathMtu.Proofs.Pacing
import PathMtu.Proofs.FragmentSize
import PathMtu.Proofs.IntervalGate
import PathMtu.Proofs.LoopEnd
import PathMtu.Proofs.FragmentOrigin
import PathMtu.Proofs.Acceptance
import PathMtu.Proofs.DeliverableSizes
import PathMtu.Proofs.Subscribers
import PathMtu.Proofs.RandomStreams
import PathMtu.Proofs.JourneyExchange
import PathMtu.Proofs.WrittenOptions
