import FlyDesk.Bookings.Saga
import FlyDesk.Bookings.Reservation
import FlyDesk.Bookings.Agreement
import FlyDesk.Bookings.Orphans
import FlyDesk.Bookings.Retry
import FlyDesk.Events.LostUpdate
import FlyDesk.Events.Outbox
import FlyDesk.Events.AtMostOnce
import FlyDesk.Events.Commit
import FlyDesk.Events.DrainLaw
import FlyDesk.Bookings.InProgress
import FlyDesk.Common.Cooldown
import FlyDesk.Common.Observability
import FlyDesk.Providers.Malformed
import FlyDesk.Providers.Duffel.Binding
import FlyDesk.Providers.Duffel.Search
import FlyDesk.Providers.Validity
import FlyDesk.Providers.Cabin
import FlyDesk.Search.CacheLaw
import FlyDesk.Search.Degrade
import FlyDesk.Bookings.Storage
import FlyDesk.Bookings.Views
import FlyDesk.Bookings.Endpoint
import FlyDesk.Bookings.Atomic
import FlyDesk.Bookings.Lease
import FlyDesk.Events.Pipeline
import FlyDesk.Search.Progress
import FlyDesk.Search.Latency
import FlyDesk.Search.Registry
import FlyDesk.Search.Endpoint
import FlyDesk.Providers.Duffel.Booking
import FlyDesk.Search.Refinement
import FlyDesk.Common.Tracing
