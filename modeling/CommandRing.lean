import CommandRing.Device.Site
import CommandRing.Main
import CommandRing.Proofs.Exchange.Reattach
import CommandRing.Proofs.Exchange.TornAnswer
import CommandRing.Scenario.Parts
import CommandRing.Scenario.Schedule
import CommandRing.Scenario.Solo
import CommandRing.Proofs.Driver.Poison
import CommandRing.Dispatcher.Act
import CommandRing.Proofs.Driver.Drain
import CommandRing.Proofs.Dispatcher.Settling
import CommandRing.Proofs.Dispatcher.Loop
import CommandRing.Proofs.Dispatcher.Attribution
import CommandRing.Proofs.Dispatcher.Service
import CommandRing.Proofs.Dispatcher.Delivery
import CommandRing.Proofs.Dispatcher.Tracking
import CommandRing.Proofs.Dispatcher.Outcome
import CommandRing.Proofs.Counters
import CommandRing.Proofs.Driver.Footprint
import CommandRing.Proofs.Dispatcher.Reservation
import CommandRing.Proofs.Dispatcher.Awake
import CommandRing.Proofs.Codec.Restoring
import CommandRing.Proofs.Dispatcher.Tickets
import CommandRing.Proofs.Codec.RoundTrip
import CommandRing.Proofs.Dispatcher.FanOut
import CommandRing.Proofs.Dispatcher.Ringing
import CommandRing.Proofs.Driver.Polling
import CommandRing.Proofs.Driver.Resuming
import CommandRing.Proofs.Driver.Submitting
import CommandRing.Proofs.Exchange.Rounds
import CommandRing.Proofs.Ring.Steps
import CommandRing.Proofs.Driver.Issuing
import CommandRing.Proofs.Driver.Attaching
import CommandRing.Proofs.Cdb
import CommandRing.Proofs.Driver.Room
import CommandRing.Proofs.Device.Label
import CommandRing.Proofs.Device.Listing
import CommandRing.Proofs.Device.MapSize
import CommandRing.Proofs.Region.History
