import BusBench.Coverage
import BusBench.JsonText
import BusBench.Report

namespace BusBench

def Channel.name : Channel → String
  | read => "read"
  | write => "write"

/-- A channel at the start of a title. -/
def Channel.title : Channel → String
  | read => "Read"
  | write => "Write"

def FailReason.name : FailReason → String
  | sentinel => "sentinel"
  | timeout => "timeout"
  | noVerdict => "no_verdict"

def Violation.document (v : Violation) : Document :=
  .table
    [("tick", .nat v.tick), ("channel", .text v.channel.name), ("addr", .word v.addr),
     ("reason", .text v.reason.message)]

def BusStats.document (s : BusStats) : Document :=
  .table
    [("reads", .nat s.reads), ("writes", .nat s.writes),
     ("violations", .list (s.violations.map Violation.document))]

def Outcome.document : Outcome → Document
  | pass => .table [("verdict", .text "pass")]
  | fail reason => .table [("verdict", .text "fail"), ("reason", .text reason.name)]

def Report.document (r : Report) : Document :=
  .table [("outcome", r.outcome.document), ("ticks", .nat r.ticks), ("bus", r.bus.document)]

def Toggles.document (t : Toggles) : Document :=
  .table
    [("name", .text t.pin.name), ("width", .nat t.pin.width), ("rises", .nat t.rises),
     ("falls", .nat t.falls), ("bits_covered", .nat t.covered)]

def Coverage.document (c : Coverage) : Document :=
  .table
    [("samples", .nat c.samples), ("read_handshakes", .nat c.readHandshakes),
     ("write_handshakes", .nat c.writeHandshakes), ("toggle_coverage", .float c.fraction),
     ("pins", .list (c.toggles.map Toggles.document))]

/-- The text of a coverage file. -/
def Coverage.text (c : Coverage) : String := Json.pretty 0 c.document

namespace Report

/-- A line that tells of a refused access. -/
def violationLine (v : Violation) : String :=
  "  tick " ++ toString v.tick ++ ": " ++ v.channel.title ++ " " ++ v.addr.hex ++ ": " ++
    v.reason.message

/-- The lines that tell of a run. -/
def lines (r : Report) : List String :=
  ["outcome:    " ++ r.outcome.message,
   "ticks:      " ++ toString r.ticks,
   "reads:      " ++ toString r.bus.reads,
   "writes:     " ++ toString r.bus.writes] ++
  (if r.bus.violations.isEmpty then []
   else
    ("violations: " ++ toString r.bus.violations.length) :: r.bus.violations.map violationLine)

end Report

end BusBench
