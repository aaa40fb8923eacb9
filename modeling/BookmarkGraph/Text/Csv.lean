/-!
# Records with commas

A record is a line of fields with commas between them. A field is put between quotes only where it
has to be, and a quote inside such a field is written twice.
-/

namespace BookmarkGraph.Csv

/-- Whether a field has to be quoted: it holds a comma, a quote or a line break. -/
def needsQuotes (field : List Char) : Bool :=
  field.any fun c ↦ c = ',' || c = '"' || c = '\n' || c = '\r'

/-- A field between quotes. -/
def quoted (field : List Char) : List Char :=
  '"' :: field.flatMap (fun c ↦ if c = '"' then ['"', '"'] else [c]) ++ ['"']

/-- A field as it stands in a record. -/
def field (text : String) : String :=
  if needsQuotes text.toList then String.ofList (quoted text.toList) else text

/-- A record with the line break behind it. A record of one empty field is quoted, because a line
without characters would be no record. -/
def record (fields : List String) : String :=
  match fields with
  | [""] => "\"\"\n"
  | _ => ",".intercalate (fields.map field) ++ "\n"

end BookmarkGraph.Csv
