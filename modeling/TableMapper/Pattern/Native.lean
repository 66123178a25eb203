import TableMapper.Pattern.Engine
import TableMapper.Pattern.Match
import TableMapper.Pattern.Reader

/-! # The engine of this library

Patterns are read as trees, and texts are matched with these. The engine serves where the name space of
patterns is opened, and nowhere else.
-/

namespace TableMapper.Pattern

scoped instance engine : PatternEngine where
  compile source :=
    match read? source with
    | some p => .ok p.matchesIn
    | none => .error "regex parse error"

theorem compile_of_read? {source : String} {p : Pattern} (read : read? source = some p) :
    PatternEngine.compile source = .ok p.matchesIn := by
  simp only [PatternEngine.compile, read]

end TableMapper.Pattern
