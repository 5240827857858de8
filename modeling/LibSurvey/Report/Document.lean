import LibSurvey.Document
import LibSurvey.Survey

/-!
What surveys and objects tell, as documents.
-/

namespace LibSurvey

/-- The entries of a map in the order of their names. -/
def Document.ofMap {α : Type} (encode : α → Document) (map : Std.TreeMap String α) :
    Document :=
  .fields (map.toList.map fun entry => (entry.1, encode entry.2))

def Param.document (param : Param) : Document :=
  .fields (("type", .text param.type) ::
    (param.name.map fun name => ("name", Document.text name)).toList)

def Signature.document (signature : Signature) : Document :=
  .fields [("return_type", .text signature.returnType),
    ("params", .list (signature.params.map Param.document))]

def MacroDefinition.document (definition : MacroDefinition) : Document :=
  .fields [("params", .texts definition.params), ("body", .text definition.body)]

def FoundFunction.document (function : FoundFunction) : Document :=
  .fields [("signature", .ofOption Signature.document function.signature),
    ("provenance", .text function.provenance.name), ("exported", .boolean function.exported)]

/-- A machine that is not known is one of its own kind. -/
def Architecture.document : Architecture → Document
  | .unknown => .fields [("unknown", .text "unknown")]
  | architecture => .text architecture.name

def Diagnostic.document (diagnostic : Diagnostic) : Document :=
  .fields [("stage", .text diagnostic.stage.name), ("message", .text diagnostic.message)]

def Export.document (symbol : Export) : Document :=
  .fields ([("raw", Document.text symbol.raw)] ++
    (symbol.demangled.map fun name => ("demangled", Document.text name)).toList ++
    [("language", .text symbol.language.key)])

def SignatureSet.document (set : SignatureSet) : Document :=
  .fields [("constants", .ofMap (fun value => .integer value.toInt) set.constants),
    ("macros", .ofMap MacroDefinition.document set.macros),
    ("functions", .ofMap Signature.document set.functions)]

def BinarySignatures.document (binary : BinarySignatures) : Document :=
  .fields [("architecture", binary.architecture.document),
    ("functions", .ofMap Signature.document binary.functions),
    ("exports", .list (binary.exports.map Export.document))]

def Survey.document (survey : Survey) : Document :=
  .fields [("library", .text survey.library),
    ("header", .ofOption (fun path => .text path.text) survey.header),
    ("search_paths", .texts (survey.searchPaths.map Path.text)),
    ("architecture", .ofOption Architecture.document survey.architecture),
    ("constants", .ofMap (fun value => .integer value.toInt) survey.constants),
    ("macros", .ofMap MacroDefinition.document survey.macros),
    ("functions", .ofMap FoundFunction.document survey.functions),
    ("binary_error", .ofOption (fun failure => .text failure.message) survey.binaryFailure),
    ("cancelled", .boolean survey.cancelled),
    ("diagnostics", .list (survey.diagnostics.map Diagnostic.document))]

end LibSurvey
