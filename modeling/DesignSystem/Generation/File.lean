import DesignSystem.Json.Record
import DesignSystem.Job
/-!
# Generated files

A generated file has a name, a text, a language and a description. Files are exported to a folder
one after the other; where that fails, the files before stay, and the path at fault is named.
-/

namespace DesignSystem

/-- The languages of generated files. -/
inductive Language where
  | ts
  | css
  | html
  | json
  deriving DecidableEq

namespace Language

/-- The name of a language. -/
def name : Language → String
  | ts => "ts"
  | css => "css"
  | html => "html"
  | json => "json"

/-- The language of a name. -/
def ofName? (name : String) : Option Language :=
  [ts, css, html, json].find? fun l => l.name == name

end Language

/-- A generated file. -/
structure GeneratedFile where
  fileName : String
  content : String
  language : Language
  description : String
  deriving DecidableEq

namespace GeneratedFile

/-- The document of a file. -/
def toJson (f : GeneratedFile) : Json :=
  .object [("fileName", .string f.fileName), ("content", .string f.content),
    ("language", .string f.language.name), ("description", .string f.description)]

/-- Reads the record of a file. -/
def ofSource (depth : Nat) (s : Json.Source) : Option GeneratedFile :=
  Json.Source.opened depth fun depth => do
    match ← s.fields ["fileName", "content", "language", "description"] with
    | [some fileName, some content, some language, some description] =>
      let fileName ← fileName.text
      let content ← content.text
      let language ← Language.ofName? (← language.alternative depth)
      let description ← description.text
      return ⟨fileName, content, language, description⟩
    | _ => none

/-- Reads a file from its record's text. -/
def read (text : String) : Option GeneratedFile :=
  (Json.Source.ofString text).bind (ofSource Json.maxDepth)

/-- Writes files to a folder that is there, and gives their paths. -/
def writeAll (folder : String) : List GeneratedFile → Job (Except Disk.Failure (List String))
  | [] => return .ok []
  | f :: rest => do
    let path := Disk.within folder f.fileName
    match ← Job.write path f.content with
    | .error e => return .error ⟨path, e⟩
    | .ok () => return (← writeAll folder rest).map (path :: ·)

/-- Writes files to a folder, which is created if it is missing, and gives their paths. -/
def exportAll (folder : String) (files : List GeneratedFile) :
    Job (Except Disk.Failure (List String)) := do
  match ← Job.makeFolders folder with
  | .error e => return .error ⟨folder, e⟩
  | .ok () => writeAll folder files

end GeneratedFile

end DesignSystem
