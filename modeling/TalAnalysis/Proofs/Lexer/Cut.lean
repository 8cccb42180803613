import TalAnalysis.Proofs.Lexer.Segmentation

namespace TalAnalysis

namespace Text

variable {source : List Char}

theorem byteLength_pos {text : List Char} (some : text ≠ []) : 0 < byteLength text := by
  obtain ⟨c, rest, rfl⟩ := List.exists_cons_of_ne_nil some
  have := c.utf8Size_pos
  rw [byteLength_cons]
  omega

theorem cutAt?_eq_some {text front back : List Char} {offset : Nat}
    (h : cutAt? text offset = some (front, back)) :
    text = front ++ back ∧ byteLength front = offset := by
  fun_induction cutAt? text offset generalizing front with
  | case1 => cases h; exact ⟨rfl, rfl⟩
  | case2 => cases h
  | case3 c text offset some fits ih =>
      obtain ⟨⟨a, b⟩, cut, same⟩ := Option.map_eq_some_iff.1 h
      cases same
      obtain ⟨rfl, size⟩ := ih cut
      exact ⟨rfl, by rw [byteLength_cons, size]; omega⟩
  | case4 => cases h

theorem slice?_after {before rest middle : List Char} {stop : Nat}
    (h : slice? (before ++ rest) (byteLength before) stop = some middle) :
    middle <+: rest ∧ stop = byteLength before + byteLength middle := by
  have ordered : byteLength before ≤ stop := by
    by_contra beyond
    have none : (guard (byteLength before ≤ stop) : Option Unit) = none := if_neg beyond
    unfold slice? at h
    rw [cutAt?_byteLength, none] at h
    simp only [Option.bind_eq_bind, Option.bind_some, Option.bind_none] at h
    cases h
  have some : (guard (byteLength before ≤ stop) : Option Unit) = some () := if_pos ordered
  unfold slice? at h
  rw [cutAt?_byteLength, some] at h
  simp only [Option.bind_eq_bind, Option.bind_some] at h
  obtain ⟨⟨front, back⟩, cut, same⟩ := Option.bind_eq_some_iff.1 h
  obtain rfl : front = middle := Option.some.inj same
  obtain ⟨rfl, size⟩ := cutAt?_eq_some cut
  exact ⟨⟨back, rfl⟩, by omega⟩

theorem slice?_eq_some {text : List Char} {start stop : Nat}
    (h : slice? source start stop = some text) :
    ∃ before after, source = before ++ (text ++ after) ∧ byteLength before = start ∧
      start + byteLength text = stop := by
  have cut := h
  rw [slice?, Option.bind_eq_bind, Option.bind_eq_some_iff] at cut
  obtain ⟨⟨before, rest⟩, cut, -⟩ := cut
  obtain ⟨rfl, rfl⟩ := cutAt?_eq_some cut
  obtain ⟨⟨after, rfl⟩, size⟩ := slice?_after h
  exact ⟨before, after, rfl, rfl, size.symm⟩

theorem slice?_append {front back : List Char} {start middle stop : Nat}
    (one : slice? source start middle = some front)
    (other : slice? source middle stop = some back) :
    slice? source start stop = some (front ++ back) := by
  obtain ⟨before, after, cut, rfl, rfl⟩ := slice?_eq_some one
  obtain ⟨before', after', cut', here, rfl⟩ := slice?_eq_some other
  have same : before' = before ++ front := by
    have found := cutAt?_byteLength before' (back ++ after')
    have found' := cutAt?_byteLength (before ++ front) after
    rw [byteLength_append, List.append_assoc, ← cut, ← here, cut', found] at found'
    exact (Prod.mk.inj (Option.some.inj found')).1
  have whole : source = before ++ ((front ++ back) ++ after') := by
    rw [cut', same]
    simp only [List.append_assoc]
  have size : byteLength before + byteLength front + byteLength back =
      byteLength before + byteLength (front ++ back) := by
    rw [byteLength_append, Nat.add_assoc]
  rw [size, whole]
  exact slice?_middle before (front ++ back) after'

namespace Reader

def In (source : List Char) (r : Reader) : Prop :=
  ∃ before, source = before ++ r.rest ∧ r.place.offset = byteLength before

theorem In.skip {r : Reader} (h : r.In source) (n : Nat) : (r.skip n).In source := by
  obtain ⟨before, cut, offset⟩ := h
  refine ⟨before ++ r.rest.take n, ?_, ?_⟩
  · rw [rest_skip, List.append_assoc, List.take_append_drop, cut]
  · rw [offset_skip, offset, byteLength_append]

theorem offset_skip_front {r : Reader} {text : List Char} (front : text <+: r.rest) :
    (r.skip text.length).place.offset = r.place.offset + byteLength text := by
  rw [offset_skip, ← List.prefix_iff_eq_take.1 front]

theorem In.slice? {r : Reader} (h : r.In source) {text : List Char} (front : text <+: r.rest) :
    slice? source r.place.offset (r.place.offset + byteLength text) = some text := by
  obtain ⟨before, cut, offset⟩ := h
  obtain ⟨after, rest⟩ := front
  rw [cut, ← rest, offset]
  exact slice?_middle before text after

theorem In.of_slice? {r : Reader} (h : r.In source) {text : List Char} {stop : Nat}
    (found : Text.slice? source r.place.offset stop = some text) :
    text <+: r.rest ∧ stop = r.place.offset + byteLength text := by
  obtain ⟨before, cut, offset⟩ := h
  rw [cut, offset] at found
  rw [offset]
  exact slice?_after found

end Reader
end Text

end TalAnalysis
