/-! The lines of a text. A line feed ends a line, together with one carriage return before it. -/
namespace SealedPost.Text

/-- The pieces of a list that end after each element that `ends` accepts. The last piece may end with the list;
it is never empty. -/
def splitAfter {α : Type} (ends : α → Bool) : List α → List (List α)
  | [] => []
  | a :: rest =>
    if ends a then [a] :: splitAfter ends rest
    else match splitAfter ends rest with
      | [] => [[a]]
      | piece :: pieces => (a :: piece) :: pieces

/-- A line without the line feed that ends it and one carriage return before that. Without a line feed nothing is
dropped. -/
def withoutEnd (line : List Char) : List Char :=
  if line.getLast? = some '\n' then
    let line := line.dropLast
    if line.getLast? = some '\r' then line.dropLast else line
  else line

def lines (s : String) : List String :=
  (splitAfter (· == '\n') s.toList).map fun line => String.ofList (withoutEnd line)

end SealedPost.Text
