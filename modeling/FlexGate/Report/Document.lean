import FlexGate.Json.Basic
import FlexGate.Report

/-!
A report as a JSON value.
-/

set_option autoImplicit false
set_option relaxedAutoImplicit false

namespace FlexGate

def Finding.json (f : Finding) : Json := .object
  [ ("kind", .string f.kind.name),
    ("message", .string f.defect.message),
    ("line", .ofNat f.line),
    ("column", .ofOption .ofNat f.column),
    ("suggestion", .string f.defect.suggestion),
    ("rationale", .string f.defect.rationale),
    ("is_critical_loop_defect", .bool f.isCritical) ]

def Report.json (r : Report) : Json := .object
  [ ("is_acceptable", .bool r.isAcceptable),
    ("has_critical_loop_defect", .bool r.hasCriticalLoop),
    ("dialect", .string r.dialect.tag),
    ("errors", .ofList Finding.json r.findings),
    ("warnings", .ofList (fun w ↦ .string w.message) r.warnings),
    ("suggestions", .ofList (fun a ↦ .string a.message) r.suggestions) ]

end FlexGate
