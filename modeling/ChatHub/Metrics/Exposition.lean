import ChatHub.Decimal.Compact
import ChatHub.Decimal.Layout
import ChatHub.Metrics.Registry
/-!
The text in which the metrics are handed out: for each metric two lines that describe it and then
one line for each value.  Label values are written as they are.
-/

namespace ChatHub.Metrics

/-- One line with a value. -/
structure Sample where
  name : String
  labels : List (String × String)
  value : String
deriving DecidableEq, Repr

def writeLabel (label : String × String) : String := label.1 ++ "=\"" ++ label.2 ++ "\""

def Sample.write (s : Sample) : String :=
  let labels :=
    if s.labels.isEmpty then ""
    else "\x7b" ++ ",".intercalate (s.labels.map writeLabel) ++ "\x7d"
  s.name ++ labels ++ " " ++ s.value

inductive MetricType where
  | counter
  | gauge
  | histogram
deriving DecidableEq, Repr

def MetricType.name : MetricType → String
  | counter => "counter"
  | gauge => "gauge"
  | histogram => "histogram"

structure Metric where
  name : String
  help : String
  type : MetricType
  samples : List Sample
deriving DecidableEq, Repr

/-- The lines of a metric.  One that has no values yet has no lines. -/
def Metric.lines (m : Metric) : List String :=
  if m.samples.isEmpty then []
  else
    ("# HELP " ++ m.name ++ " " ++ m.help ++ ".") ::
      ("# TYPE " ++ m.name ++ " " ++ m.type.name) :: m.samples.map Sample.write

/-- Numbers have at least one decimal place, and no exponent between a millionth and
10 ^ 21. -/
def numberLayout : Decimal.Layout := ⟨some (-5), some 21, true⟩

def writeFloat (x : Float) : String :=
  String.ofList (numberLayout.write Decimal.Binary.compact (.ofFloat x))

def HttpLabels.labels (l : HttpLabels) : List (String × String) :=
  [("method", l.method), ("path", l.path), ("status", toString l.status)]

def gauge (name help : String) (value : Int) : Metric :=
  ⟨name, help, .gauge, [⟨name, [], toString value⟩]⟩

def counterFamily {κ : Type} (name help : String) (labels : κ → List (String × String))
    (fam : Family κ Nat) : Metric :=
  ⟨name, help, .counter,
    fam.map fun (k, n) => ⟨name ++ "_total", labels k, toString n⟩⟩

/-- The upper bounds as they are written, and last the one of everything. -/
def boundTexts : List String := durationBounds.map writeFloat ++ ["+Inf"]

def histogramSamples (name : String) (l : HttpLabels) (h : Histogram) : List Sample :=
  ⟨name ++ "_sum", l.labels, writeFloat h.sum⟩ ::
    ⟨name ++ "_count", l.labels, toString h.count⟩ ::
    (boundTexts.zip h.cumulative).map fun (bound, n) =>
      ⟨name ++ "_bucket", ("le", bound) :: l.labels, toString n⟩

/-- Every metric, in the order in which they are handed out. -/
def Registry.metrics (r : Registry) : List Metric :=
  [counterFamily "chirm_http_requests" "Total HTTP requests" HttpLabels.labels r.requests,
   ⟨"chirm_http_request_duration_seconds", "HTTP request duration in seconds", .histogram,
     r.durations.flatMap fun (l, h) =>
       histogramSamples "chirm_http_request_duration_seconds" l h⟩,
   gauge "chirm_http_active_connections" "Number of HTTP requests in flight" r.inFlight,
   gauge "chirm_websocket_connections" "Active WebSocket connections" r.hub.connections,
   ⟨"chirm_websocket_sessions", "WebSocket sessions accepted", .counter,
     [⟨"chirm_websocket_sessions_total", [], toString r.sessions⟩]⟩,
   counterFamily "chirm_websocket_rejected" "WebSocket upgrades refused"
     (fun reason => [("reason", reason)]) r.rejected,
   counterFamily "chirm_websocket_commands" "Inbound WebSocket commands by type"
     (fun command => [("command", command)]) r.commands,
   gauge "chirm_voice_rooms_active" "Voice rooms with at least one member" r.hub.voiceRooms,
   gauge "chirm_evicted_connections" "Connections evicted because their send queue was full"
     r.hub.evicted,
   gauge "chirm_signals_relayed" "Signaling messages forwarded" r.hub.signalsRelayed,
   gauge "chirm_signals_dropped" "Signaling messages dropped between non-members"
     r.hub.signalsDropped]

def Registry.lines (r : Registry) : List String :=
  r.metrics.flatMap Metric.lines ++ ["# EOF"]

/-- The whole text. -/
def Registry.encode (r : Registry) : String :=
  String.join (r.lines.map (· ++ "\n"))

end ChatHub.Metrics
