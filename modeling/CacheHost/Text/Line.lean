import CacheHost.Text

namespace CacheHost.Text

/-- A line feed takes one carriage return in front of it along. Text after the last line feed is a
line too, unless it is empty, and keeps its returns. -/
def lines : Text → List Text
  | [] => []
  | '\n' :: s => [] :: lines s
  | '\r' :: '\n' :: s => [] :: lines s
  | c :: s =>
    match lines s with
    | [] => [[c]]
    | l :: ls => (c :: l) :: ls

theorem lines_eq_nil_iff {s : Text} : lines s = [] ↔ s = [] := by
  fun_cases lines s <;> simp_all

end CacheHost.Text
