import SpanEcho.Main
import SpanEcho.Span.Echo
import SpanEcho.Proofs.Reactor.Interest
import SpanEcho.Proofs.Serving
import SpanEcho.Proofs.Registry.Requests
import SpanEcho.Proofs.Registry.Tickets
import SpanEcho.Proofs.Reactor.Tidy
import SpanEcho.Proofs.Reactor.Admission
import SpanEcho.Proofs.Reactor.Rightful
import SpanEcho.Proofs.Reactor.Fate
import SpanEcho.Proofs.Reactor.Isolation
import SpanEcho.Proofs.Reactor.Counters
import SpanEcho.Proofs.Reactor.Accounting
import SpanEcho.Proofs.Reactor.Fatal
import SpanEcho.Proofs.Stopping
import SpanEcho.Proofs.Reactor.Regular
import SpanEcho.Proofs.Readiness
import SpanEcho.Proofs.Reactor.Pause
import SpanEcho.Proofs.Joining
import SpanEcho.Proofs.Reactor.Order
import SpanEcho.Proofs.Reactor.Flawless
import SpanEcho.Proofs.Reactor.Limits
import SpanEcho.Proofs.Blocking
import SpanEcho.Proofs.Session.Draining
import SpanEcho.Proofs.Session.Backpressure
import SpanEcho.Proofs.Patience
import SpanEcho.Proofs.Span.Grammar
import SpanEcho.Proofs.Outbox.Queue
import SpanEcho.Proofs.Session.Idling
import SpanEcho.Proofs.Settings
import SpanEcho.Proofs.Client.Arguments
import SpanEcho.Proofs.Client.Reader
import SpanEcho.Proofs.LogLevel
import SpanEcho.Proofs.Reactor.Reporting
