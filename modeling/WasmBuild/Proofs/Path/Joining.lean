import WasmBuild.Proofs.Path.Components

/-!
# Joining by components

Joining is associative in its bytes, and what a joined path means depends only on what its two parts
mean. A path that ends in a name therefore has, below any base, a parent that means what its own
parent means below that base.
-/
namespace WasmBuild

/-- The root and the directory itself are meant by no segment inside a path. -/
theorem ofSegment?_ne_lead (segment : Bytes) :
    Component.ofSegment? segment ≠ some .root ∧ Component.ofSegment? segment ≠ some .here := by
  unfold Component.ofSegment?
  split_ifs <;> simp

theorem ne_lead_of_mem_meaning {segments : List Bytes} {c : Component}
    (member : c ∈ meaning segments) : c ≠ .root ∧ c ≠ .here := by
  obtain ⟨segment, -, means⟩ := List.mem_filterMap.1 member
  obtain ⟨notRoot, notHere⟩ := ofSegment?_ne_lead segment
  exact ⟨fun same => notRoot (same ▸ means), fun same => notHere (same ▸ means)⟩

namespace Path

/-- Bytes that a relative path can follow: a separator ends them, unless they are none. -/
def opened (bytes : Bytes) : Bytes :=
  if bytes = [] ∨ bytes.getLast? = some separator then bytes else bytes ++ [separator]

@[simp] theorem opened_nil : opened [] = [] := by simp [opened]

theorem opened_append (a : Bytes) {b : Bytes} (nonempty : b ≠ []) :
    opened (a ++ b) = a ++ opened b := by
  unfold opened
  rw [List.getLast?_append_of_ne_nil a nonempty]
  by_cases ends : b.getLast? = some separator
  · rw [if_pos (.inr ends), if_pos (.inr ends)]
  · rw [if_neg (by simp [nonempty, ends]), if_neg (by simp [nonempty, ends]), List.append_assoc]

theorem opened_opened (a : Bytes) : opened (opened a) = opened a := by
  by_cases bare : a = [] ∨ a.getLast? = some separator
  · have same : opened a = a := if_pos bare
    rw [same, same]
  · have closed : opened a = a ++ [separator] := if_neg bare
    rw [closed, opened_append a (by simp)]
    rfl

theorem opened_opened_append (a b : Bytes) : opened (opened a ++ b) = opened a ++ opened b := by
  by_cases empty : b = []
  · rw [empty, List.append_nil, opened_opened, opened_nil, List.append_nil]
  · exact opened_append _ empty

theorem join_of_isAbsolute (base : Path) {child : Path} (absolute : child.isAbsolute = true) :
    base.join child = child := if_pos absolute

theorem join_eq_opened (base : Path) {child : Path} (relative : child.isAbsolute = false) :
    base.join child = ⟨opened base.bytes ++ child.bytes⟩ := by
  rw [join_of_not_isAbsolute base relative, opened]
  split_ifs
  · rfl
  · rw [List.append_assoc]
    rfl

theorem isAbsolute_join (base : Path) {child : Path} (relative : child.isAbsolute = false) :
    (base.join child).isAbsolute = base.isAbsolute := by
  obtain ⟨bytes⟩ := base
  rw [join_eq_opened _ relative]
  cases bytes with
  | nil => exact relative
  | cons x rest =>
      simp only [isAbsolute, opened]
      split_ifs <;> simp

/-- Joining is associative. -/
theorem join_assoc (a b c : Path) : (a.join b).join c = a.join (b.join c) := by
  by_cases last : c.isAbsolute = true
  · simp only [join_of_isAbsolute _ last]
  have last' : c.isAbsolute = false := by simpa using last
  by_cases middle : b.isAbsolute = true
  · have whole : (b.join c).isAbsolute = true := (isAbsolute_join b last').trans middle
    rw [join_of_isAbsolute a middle, join_of_isAbsolute a whole]
  have middle' : b.isAbsolute = false := by simpa using middle
  have whole : (b.join c).isAbsolute = false := (isAbsolute_join b last').trans middle'
  rw [join_eq_opened _ last', join_eq_opened a whole, join_eq_opened a middle',
    join_eq_opened b last', opened_opened_append, List.append_assoc]

theorem root_mem_components_iff (p : Path) : .root ∈ p.components ↔ p.isAbsolute = true := by
  have inside : Component.root ∉ meaning p.segments := fun member =>
    (ne_lead_of_mem_meaning member).1 rfl
  rw [components_eq, List.mem_append, or_iff_left inside, lead]
  split_ifs <;> simp_all

@[simp] theorem components_eq_nil_iff (p : Path) : p.components = [] ↔ p.bytes = [] := by
  obtain ⟨bytes⟩ := p
  constructor
  · intro none
    rw [components_eq, List.append_eq_nil_iff] at none
    obtain ⟨noLead, noMeaning⟩ := none
    cases bytes with
    | nil => rfl
    | cons x rest =>
        have notSeparator : x ≠ separator := by
          rintro rfl
          simp [lead, isAbsolute] at noLead
        obtain ⟨s, more, divided⟩ := List.exists_cons_of_ne_nil (segmentsOf_ne_nil rest)
        have first : segments ⟨x :: rest⟩ = (x :: s) :: more := by
          simp [segments, segmentsOf, notSeparator, divided]
        have notDot : x :: s ≠ dotSegment := by
          intro dot
          simp [lead, isAbsolute, notSeparator, first, dot] at noLead
        have means := List.filterMap_eq_nil_iff.1 noMeaning (x :: s) (by simp [first])
        unfold Component.ofSegment? at means
        split_ifs at means with idle
        simp [isIdleSegment, notDot] at idle
  · rintro rfl
    exact components_empty

/-- The components that remain of a relative path when it is joined to a base. -/
def moves (p : Path) : List Component := p.components.filter (· ≠ .here)

theorem moves_of_relative {p : Path} (relative : p.isAbsolute = false) :
    p.moves = meaning p.segments := by
  have kept : (meaning p.segments).filter (· ≠ .here) = meaning p.segments :=
    List.filter_eq_self.2 fun c member => by simpa using (ne_lead_of_mem_meaning member).2
  rw [moves, components_eq, List.filter_append, kept, lead, relative, if_neg (by simp)]
  split_ifs <;> simp

/-- What a joined path means, by what its parts mean. -/
theorem components_join_eq (base p : Path) :
    (base.join p).components =
      if .root ∈ p.components ∨ base.components = [] then p.components
      else base.components ++ p.moves := by
  simp only [components_join_eq_seenFrom, seenFrom, root_mem_components_iff, components_eq_nil_iff]
  split_ifs with whole
  · rfl
  · rw [moves_of_relative (by simpa using (not_or.1 whole).1)]

/-- From bases of one meaning, a path means the same. -/
theorem components_join_congr {base base' : Path} (same : base.components = base'.components)
    (p : Path) : (base.join p).components = (base'.join p).components := by
  rw [components_join_eq, components_join_eq, same]

/-- A name at the end of a path is the last component of the path below any base. -/
theorem components_join_of_name (base : Path) {p q : Path} {n : Bytes}
    (split : p.components = q.components ++ [.named n]) :
    (base.join p).components = (base.join q).components ++ [.named n] := by
  have absolute : .root ∈ p.components ↔ Component.root ∈ q.components := by simp [split]
  have last : p.moves = q.moves ++ [.named n] := by simp [moves, split]
  rw [components_join_eq, components_join_eq]
  by_cases whole : .root ∈ q.components ∨ base.components = []
  · have whole' : .root ∈ p.components ∨ base.components = [] := whole.imp_left absolute.2
    rw [if_pos whole', if_pos whole, split]
  · have below : ¬ (.root ∈ p.components ∨ base.components = []) :=
      fun either => whole (either.imp_left absolute.1)
    rw [if_neg below, if_neg whole, last, List.append_assoc]

/-- The parent of a path that ends in a name, below a base, means the parent below that base. -/
theorem parent?_join (base : Path) {p q : Path} {n : Bytes} (named : p.fileName? = some n)
    (parent : p.parent? = some q) :
    ∃ above, (base.join p).parent? = some above ∧ above.components = (base.join q).components := by
  obtain ⟨q', parent', split⟩ := parent?_of_fileName? named
  obtain rfl := Option.some.inj (parent.symm.trans parent')
  exact exists_parent_of_components (components_join_of_name base split)

end Path
end WasmBuild
