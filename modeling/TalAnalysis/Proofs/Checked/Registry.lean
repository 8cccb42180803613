import Mathlib.Data.List.Basic
import TalAnalysis.Vocabulary.DataType
import TalAnalysis.Vocabulary.Delimiter
import TalAnalysis.Vocabulary.Directive
import TalAnalysis.Vocabulary.Indirection
import TalAnalysis.Vocabulary.Operator

namespace TalAnalysis.Checked

variable {α β : Type} [BEq α] [LawfulBEq α]

/-- The details of `id`, from the table that has a row for each of `ids`. There are none if no row
is that of `id`. -/
def detailsIn? (ids : List α) (details : α → β) (id : α) : Option β :=
  (ids.map fun other => (other, details other)).lookup id

def signDetails? (i : Indirection) : Option (String × IndirectionCategory) :=
  if i = .standard then some (i.spelling, i.category)
  else detailsIn? Indirection.signs (fun i => (i.spelling, i.category)) i

theorem detailsIn?_of_mem {ids : List α} {id : α} (listed : id ∈ ids) (details : α → β) :
    detailsIn? ids details id = some (details id) :=
  List.lookup_graph details listed

theorem signDetails?_eq (i : Indirection) : signDetails? i = some (i.spelling, i.category) := by
  rw [signDetails?]
  split_ifs with dot
  · rfl
  · exact detailsIn?_of_mem (Indirection.mem_signs i |>.2 dot) _

/-- Whatever is looked up by what it is, and not by its spelling, has its row. -/
theorem details_found :
    (∀ k, detailsIn? Keyword.all Keyword.details k = some k.details) ∧
      (∀ t, detailsIn? DataType.all DataType.details t = some t.details) ∧
      (∀ o, detailsIn? Operator.all Operator.details o = some o.details) ∧
      (∀ d, detailsIn? Delimiter.all (fun d => (d.spelling, d.category)) d =
        some (d.spelling, d.category)) ∧
      (∀ d, detailsIn? Directive.all Directive.details d = some d.details) ∧
      ∀ i, signDetails? i = some (i.spelling, i.category) :=
  ⟨fun k => detailsIn?_of_mem k.mem_all _, fun t => detailsIn?_of_mem t.mem_all _,
    fun o => detailsIn?_of_mem o.mem_all _, fun d => detailsIn?_of_mem d.mem_all _,
    fun d => detailsIn?_of_mem d.mem_all _, signDetails?_eq⟩

end TalAnalysis.Checked
