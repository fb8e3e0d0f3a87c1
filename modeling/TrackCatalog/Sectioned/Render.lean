import TrackCatalog.Sectioned.Document

/-!
# Writing sectioned documents

The written form of a document: each section opens with `[name]`, and each entry is the line
`key = value`, where the value's further lines follow on lines indented by a tab.
-/

namespace TrackCatalog

/-- The lines of an entry, each with its ending. -/
def renderEntry (e : Entry) : List Char :=
  match e.2.toList.splitOn '\n' with
  | [] => e.1.toList ++ " = \n".toList
  | first :: more =>
    e.1.toList ++ " = ".toList ++ first ++ ['\n'] ++
      more.flatMap fun piece => '\t' :: piece ++ ['\n']

/-- The lines of a section. -/
def Section.render (s : Section) : List Char :=
  '[' :: s.name.toList ++ [']', '\n'] ++ s.entries.flatMap renderEntry

/-- The text of a document. -/
def SectionedDocument.render (d : SectionedDocument) : String :=
  .ofList (d.sections.flatMap Section.render)

end TrackCatalog
