import ViewBinding.Json.Decoder
import ViewBinding.Model.Declaration

/-!
# Model documents

A model file is a JSON document: an object with a list of classes, each with its fields and methods.
All keys are known; those of markers, places and lists may be absent. A document is accepted if it
has that form and its names can be spelled.
-/

namespace ViewBinding

open Json Json.Reader

namespace FieldDeclaration

/-- Fields in documents. -/
def recordType : RecordType FieldDeclaration where
  name := "FieldDecl"
  closed := true
  blank := ⟨"", "", none⟩
  fields := [
    .mandatory "name" text fun v f => { f with name := v },
    .mandatory "type" text fun v f => { f with declaredType := v },
    .defaulted "viewId" (optional int32) fun v f => { f with viewId := v }]

end FieldDeclaration

namespace MethodDeclaration

/-- Methods in documents. -/
def recordType : RecordType MethodDeclaration where
  name := "MethodDecl"
  closed := true
  blank := ⟨"", none, none⟩
  fields := [
    .mandatory "name" text fun v m => { m with name := v },
    .defaulted "onClick" (optional (list int32)) fun v m => { m with onClick := v },
    .defaulted "onLongClick" (optional (list int32)) fun v m => { m with onLongClick := v }]

end MethodDeclaration

namespace ClassDeclaration

/-- Classes in documents. -/
def recordType : RecordType ClassDeclaration where
  name := "ClassDecl"
  closed := true
  blank := { name := "" }
  fields := [
    .mandatory "name" text fun v c => { c with name := v },
    .defaulted "package" (optional text) fun v c => { c with package := v },
    .defaulted "enclosingClass" (optional text) fun v c => { c with enclosingClass := v },
    .defaulted "contentView" (optional int32) fun v c => { c with contentView := v },
    .defaulted "fields" (list FieldDeclaration.recordType.read) fun v c => { c with fields := v },
    .defaulted "methods" (list MethodDeclaration.recordType.read)
      fun v c => { c with methods := v }]

end ClassDeclaration

/-- Why the content of a model file is refused. -/
inductive ModelFault where
  | document (error : Json.Error)
  | name (fault : NameFault)
  deriving DecidableEq, Repr

/-- The text of a refusal. -/
def ModelFault.message : ModelFault → String
  | document error => "Invalid model JSON: " ++ error.message
  | name fault => fault.message

namespace ModelFile

/-- Model files as documents. -/
def recordType : RecordType ModelFile where
  name := "ModelFile"
  closed := true
  blank := {}
  fields := [
    .defaulted "classes" (list ClassDeclaration.recordType.read) fun v m => { m with classes := v }]

/-- Read a model file and check its names. -/
def parse (content : String) : Except ModelFault ModelFile :=
  match decode recordType.read content with
  | .error e => .error (.document e)
  | .ok m =>
    match m.fault? with
    | some fault => .error (.name fault)
    | none => .ok m

end ModelFile

end ViewBinding
