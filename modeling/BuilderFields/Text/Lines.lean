/-!
# Line ends

Files may end their lines with a line feed, a carriage return or both; read as text they have line feeds
only.
-/

namespace BuilderFields.Text

/-- Every carriage return, with the line feed after it if there is one, becomes a line feed. -/
def unifyLineEnds : List Char → List Char
  | [] => []
  | '\r' :: '\n' :: rest => '\n' :: unifyLineEnds rest
  | '\r' :: rest => '\n' :: unifyLineEnds rest
  | c :: rest => c :: unifyLineEnds rest

theorem not_mem_unifyLineEnds (cs : List Char) : '\r' ∉ unifyLineEnds cs := by
  fun_induction unifyLineEnds cs with
  | case1 => simp
  | case2 rest ih => simp [ih]
  | case3 rest _ ih => simp [ih]
  | case4 c rest hpair hreturn ih =>
    intro hmem
    rcases List.mem_cons.1 hmem with heq | hmem
    · exact hreturn heq.symm
    · exact ih hmem

end BuilderFields.Text
