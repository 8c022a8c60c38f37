import AssemblyAtlas.Proofs.Syntax.Declared
import AssemblyAtlas.Proofs.Syntax.Editing
import Mathlib.Data.List.Forall2

/-!
# Pruned trees

A tree is pruned if some declarations inside it are left out, each with all that it holds. What is
left stands in the same order, under the same heads.

* `Node.Pruned` compares two declarations, and `Node.Pruned.induct` is its induction;
* `Node.Pruned.polished` carries it through the standard transforms;
* `SourceUnit.Pruned.keys_render` says that a pruned file has no other keys.
-/

namespace AssemblyAtlas
namespace Syntax

open Assembly

/-- The first declaration is the second with some of those inside left out. -/
inductive Node.Pruned : Node → Node → Prop
  | same (node : Node) :
      Pruned node node
  | space {name : String} {fewer kept members : List Node} :
      List.Forall₂ Pruned fewer kept →
      kept.Sublist members →
      Pruned (.space name fewer) (.space name members)
  | type {head : TypeHead} {fewer kept members : List Node} :
      List.Forall₂ Pruned fewer kept →
      kept.Sublist members →
      Pruned (.type head fewer) (.type head members)

namespace Node.Pruned

/-- What holds of two declarations if it holds of what is kept inside them, holds of all that are
pruned. -/
theorem induct
    {motive : Node → Node → Prop}
    (same : ∀ node, motive node node)
    (space : ∀ {name fewer kept members},
      List.Forall₂ motive fewer kept → kept.Sublist members →
      motive (.space name fewer) (.space name members))
    (type : ∀ {head fewer kept members},
      List.Forall₂ motive fewer kept → kept.Sublist members →
      motive (.type head fewer) (.type head members))
    {pruned whole : Node}
    (prunes : Pruned pruned whole) :
    motive pruned whole := by
  refine @Pruned.rec (fun pruned whole _ => motive pruned whole)
    (fun fewer kept _ => List.Forall₂ motive fewer kept) ?_ ?_ ?_ ?_ ?_ pruned whole prunes
  · exact same
  · intro name fewer kept members _ inside inner
    exact space inner inside
  · intro head fewer kept members _ inside inner
    exact type inner inside
  · exact .nil
  · intro first other fewer kept _ _ isFirst rest
    exact .cons isFirst rest

variable {pruned whole : Node}

/-- The standard transforms change both declarations alike. -/
theorem polished
    (prunes : Pruned pruned whole) :
    Pruned pruned.polished whole.polished := by
  have members {fewer kept : List Node}
      (inner : List.Forall₂ (fun pruned whole : Node => Pruned pruned.polished whole.polished)
        fewer kept) :
      List.Forall₂ Pruned (fewer.map Node.polished) (kept.map Node.polished) :=
    List.forall₂_map_left_iff.2 (List.forall₂_map_right_iff.2 inner)
  refine prunes.induct (motive := fun pruned whole => Pruned pruned.polished whole.polished)
    (fun node => .same _) (fun inner inside => ?_) (fun inner inside => ?_)
  · rw [Node.polished_space, Node.polished_space]
    exact .space (members inner) (inside.map _)
  · rw [Node.polished_type, Node.polished_type]
    exact .type (members inner) (inside.map _)

theorem sublist_declarationsOfAll
    {fewer kept members : List Node}
    (inner : List.Forall₂ (fun pruned whole : Node =>
      pruned.declarations.Sublist whole.declarations) fewer kept)
    (inside : kept.Sublist members) :
    (Node.declarationsOfAll fewer).Sublist (Node.declarationsOfAll members) := by
  induction inside generalizing fewer with
  | slnil =>
      cases inner
      exact List.nil_sublist _
  | cons other _ ih => exact (ih inner).trans (List.sublist_append_right _ _)
  | cons_cons node _ ih =>
      cases inner with
      | cons first rest => exact first.append (ih rest)

/-- A pruned declaration declares what the whole one declares, less what is left out. -/
theorem sublist_declarations
    (prunes : Pruned pruned whole) :
    pruned.declarations.Sublist whole.declarations := by
  refine prunes.induct (motive := fun pruned whole =>
    pruned.declarations.Sublist whole.declarations)
    (fun node => List.Sublist.refl _) (fun inner inside => ?_) (fun {head _ _ _} inner inside => ?_)
  · exact sublist_declarationsOfAll inner inside
  · rw [Node.declarations, Node.declarations]
    refine List.Sublist.cons_cons _ ?_
    split
    · exact List.nil_sublist _
    · exact sublist_declarationsOfAll inner inside

end Node.Pruned

/-- The first source file is the second with some declarations inside its types left out. -/
structure SourceUnit.Pruned (pruned whole : SourceUnit) : Prop where
  marks : pruned.marks = whole.marks
  members : List.Forall₂ Node.Pruned pruned.members whole.members

namespace SourceUnit.Pruned

variable {pruned whole : SourceUnit}

/-- A pruned source file declares what the whole one declares, less what is left out. -/
theorem sublist_declarations
    (prunes : pruned.Pruned whole) :
    pruned.declarations.Sublist whole.declarations :=
  Node.Pruned.sublist_declarationsOfAll
    (prunes.members.imp fun _ _ inner => inner.sublist_declarations) (List.Sublist.refl _)

theorem declares
    (prunes : pruned.Pruned whole)
    {key : SymbolKey}
    (declares : pruned.Declares key) :
    whole.Declares key :=
  (prunes.sublist_declarations.map _).subset declares

/-- A rendered source file has no fewer keys than one that is pruned. -/
theorem keys_render
    (prunes : pruned.Pruned whole)
    (format : Format) :
    ∀ key ∈ (pruned.render format).symbols.keys, key ∈ (whole.render format).symbols.keys := by
  intro key isKey
  rw [mem_keys_render_iff] at isKey ⊢
  exact prunes.declares isKey

end SourceUnit.Pruned

end Syntax
end AssemblyAtlas
