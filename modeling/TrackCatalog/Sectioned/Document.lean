import TrackCatalog.Text.Blank
import TrackCatalog.Text.Lines

/-!
# Sectioned documents

A sectioned document is text in lines: `[name]` opens a section, `key = value` or `key: value` adds
an entry to it, and a line that starts with `#` or `;` is a comment. A line indented by a space or
a tab goes on with the value of the entry before it. Keys are kept in lower case, names as written.

* `SectionedDocument.parse`: reads a document, or names the first line that is wrong.
* `Section.get?`, `SectionedDocument.section?`: look entries and sections up.
-/

namespace TrackCatalog

/-- A key and its value. -/
abbrev Entry := String × String

/-- One named block and its entries in order. -/
structure Section where
  name : String
  entries : List Entry
  deriving DecidableEq, Repr

/-- The sections in order. -/
structure SectionedDocument where
  sections : List Section
  deriving DecidableEq, Repr

/-- Why a line fits nowhere. -/
inductive LineFault where
  | unterminatedHeader (line : String)
  | notAssignment (line : String)
  | assignmentBeforeSection
  | emptyKey
  deriving DecidableEq, Repr

/-- The reason in words. -/
def LineFault.message : LineFault → String
  | unterminatedHeader line => s!"unterminated section header '{line}'"
  | notAssignment line => s!"expected 'key = value', found '{line}'"
  | assignmentBeforeSection => "assignment before any section header"
  | emptyKey => "empty key"

/-- Why a text is no sectioned document. -/
inductive DocumentError where
  | line (number : Nat) (fault : LineFault)
  | duplicateSection (name : String)
  | duplicateKey (sectionName key : String)
  deriving DecidableEq, Repr

/-- The refusal in words. -/
def DocumentError.message : DocumentError → String
  | line number fault => s!"line {number}: {fault.message}"
  | duplicateSection name => s!"duplicate section [{name}]"
  | duplicateKey sectionName key => s!"duplicate key '{key}' in [{sectionName}]"

/-- The text with its ASCII letters in lower case. -/
def lowerAscii (s : String) : String := .ofList (s.toList.map Char.toLower)

theorem toList_lowerAscii (s : String) : (lowerAscii s).toList = s.toList.map Char.toLower := by
  rw [lowerAscii, String.toList_ofList]

/-- The value of a key, in whatever case it is asked for. -/
def Section.get? (s : Section) (key : String) : Option String :=
  (s.entries.find? fun e => e.1 = lowerAscii key).map Prod.snd

/-- The section with this very name. -/
def SectionedDocument.section? (d : SectionedDocument) (name : String) : Option Section :=
  d.sections.find? fun s => s.name = name

namespace SectionedDocument

/-- The part read so far, newest section first, and in each section the newest entry first. -/
abbrev Draft := List Section

/-- The line starts with a space or a tab. -/
def isIndented : List Char → Bool
  | ' ' :: _ => true
  | '\t' :: _ => true
  | _ => false

/-- Adds a line to the newest value, if the newest section has one. -/
def extend? (draft : Draft) (line : List Char) : Option Draft :=
  match draft with
  | ⟨name, (key, value) :: entries⟩ :: older =>
    some (⟨name, (key, value ++ "\n" ++ .ofList line) :: entries⟩ :: older)
  | _ => none

/-- Opens a section; `header` is the line after its opening bracket. -/
def openSection (draft : Draft) (number : Nat) (header : List Char) :
    Except DocumentError Draft :=
  match header.reverse with
  | ']' :: name =>
    let name := String.ofList name.reverse
    if draft.any fun s => s.name = name then .error (.duplicateSection name)
    else .ok (⟨name, []⟩ :: draft)
  | _ => .error (.line number (.unterminatedHeader (.ofList ('[' :: header))))

/-- The character ends a key. -/
def isSeparator (c : Char) : Bool := c = '=' || c = ':'

/-- Adds an entry to the newest section. -/
def addEntry (draft : Draft) (number : Nat) (line : List Char) : Except DocumentError Draft :=
  match line.span (fun c => !isSeparator c) with
  | (_, []) => .error (.line number (.notAssignment (.ofList line)))
  | (key, _ :: value) =>
    let key := lowerAscii (.ofList (Text.trimList key))
    match draft with
    | [] => .error (.line number .assignmentBeforeSection)
    | ⟨name, entries⟩ :: older =>
      if key.isEmpty then .error (.line number .emptyKey)
      else if entries.any fun e => e.1 = key then .error (.duplicateKey name key)
      else .ok (⟨name, (key, .ofList (Text.trimList value)) :: entries⟩ :: older)

/-- The line says nothing: it is blank or a comment. -/
def isRemark : List Char → Bool
  | [] => true
  | c :: _ => c = '#' || c = ';'

/-- Takes one line in. -/
def addLine (draft : Draft) (number : Nat) (raw : List Char) : Except DocumentError Draft :=
  let line := Text.trimList raw
  if isRemark line then .ok draft
  else
    match if isIndented raw then extend? draft line else none with
    | some draft => .ok draft
    | none =>
      match line with
      | '[' :: header => openSection draft number header
      | line => addEntry draft number line

/-- Takes the lines in, the first of them with this number. -/
def addLines (draft : Draft) (number : Nat) : List (List Char) → Except DocumentError Draft
  | [] => .ok draft
  | raw :: rest =>
    match addLine draft number raw with
    | .ok draft => addLines draft (number + 1) rest
    | .error e => .error e

/-- A draft in the order of the document. -/
def ofDraft (draft : Draft) : SectionedDocument :=
  ⟨(draft.map fun s => ⟨s.name, s.entries.reverse⟩).reverse⟩

/-- Reads a document. -/
def parse (text : String) : Except DocumentError SectionedDocument :=
  (addLines [] 1 (Text.lines '\n' '\r' text.toList)).map ofDraft

end SectionedDocument

end TrackCatalog
