import ModuleRig.Host
import ModuleRig.Report.Basic

/-!
# Reporters

A reporter is told every line of a test run as it comes, and the report at the end. It keeps a state
of its own. The two of the command line keep what the process has written.
-/

namespace ModuleRig

structure Reporter (σ : Type) where
  onLine : σ → String → σ
  /-- May fail, having done a part of its work. -/
  onReport : σ → Report → Except SystemError Unit × σ

namespace Reporter

def lineBytes (text : String) : Bytes :=
  Text.Utf8.ofText (text ++ "\n")

/-- Passes the output on, and puts a summary line under it. -/
def console : Reporter Output where
  onLine out line := { out with stdout := out.stdout ++ lineBytes line }
  onReport out report :=
    (.ok (), { out with stdout := out.stdout ++ lineBytes "" ++ lineBytes report.line })

/-- Puts the report on the standard output and everything else on the error output. -/
def json : Reporter Output where
  onLine out line := { out with stderr := out.stderr ++ lineBytes line }
  onReport out report :=
    (.ok (), { out with stdout := out.stdout ++ lineBytes report.toJson.pretty })

/-- What a run has told its reporter. -/
structure Record where
  lines : List String
  reports : List Report
deriving DecidableEq, Repr

/-- Only keeps what it is told. At the end it fails with the error, if one is given. -/
def recording (error : Option SystemError) : Reporter Record where
  onLine record line := { record with lines := record.lines ++ [line] }
  onReport record report :=
    ((match error with
      | none => .ok ()
      | some e => .error e),
      { record with reports := record.reports ++ [report] })

end Reporter

end ModuleRig
