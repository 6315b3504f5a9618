import Notebook.Note.Basic

/-! # Contexts

The place in which a call is expanded: the templates that are being expanded around it and the
title whose fields are in scope.
-/

namespace Notebook

/-- Templates under expansion, innermost first. Siblings share the tail and nothing else. -/
abbrev Chain := List Title

structure Context where
  chain : Chain := []
  scope : Option Title := none
  deriving DecidableEq, Repr

end Notebook
