import SkitPage.Proofs.Display

/-!
# Switching elements on

Backgrounds, characters and emotes share one scheme of rules. Each has a mark, and the scenes of the
states that show it carry the mark. If the first state does not show it, it is on while an element with
its mark is targeted; if the first state does, it is on unless an element without its mark is targeted
(`Page.winner_activationRules`). The scheme has two shapes, with and without elements that the first
state shows, and both come to the same: what a targeted element says outweighs what is said without one.

Key definition: `Page.Reach.sources`.
Key theorem: `Page.winner_activationRules`.
-/

namespace SkitPage.Page

open Cascade

variable {v : View} {x : Spot} {r : Reach} {m : Member}

/-! ### What the selectors say -/

/-- The places from which an element is reached. -/
def Reach.sources (r : Reach) (x : Spot) : List Spot :=
  match r with
  | .beside => x.related .sibling
  | .within => (x.related .descendant).flatMap (·.related .sibling)

theorem Reach.selects_select {start : List Simple} {id : String} :
    (r.select start id).selects v x = true ↔
      x.self.id = id ∧ ∃ y ∈ r.sources x, Simple.holdAll v start y = true := by
  cases r with
  | beside => simp [select, sources, Selector.selects, Simple.holdAll, Simple.holds]
  | within =>
    simp only [select, sources, Selector.selects, Simple.holdAll, Simple.holds, Bool.and_true, Bool.true_and,
      Bool.and_eq_true, beq_iff_eq, List.any_eq_true, List.mem_flatMap]
    constructor
    · rintro ⟨hid, z, hz, y, hy, h⟩
      exact ⟨hid, y, ⟨z, hz, hy⟩, h⟩
    · rintro ⟨hid, y, ⟨z, hz, hy⟩, h⟩
      exact ⟨hid, z, hz, y, hy, h⟩

theorem selects_whenShown : (m.whenShown r).selects v x = true ↔
    x.self.id = m.id ∧ ∃ y ∈ r.sources x, v.fragment = some y.self.id ∧ m.activation ∈ y.self.classes := by
  rw [Member.whenShown, Reach.selects_select]
  simp [Simple.holdAll, Simple.holds, and_comm]

variable {cls kind : String} {members : List Member}

section

-- the element is that of a member, and no other member has its id
variable (hm : m ∈ members) (hinj : ∀ m' ∈ members, m'.id = m.id → m' = m) (hx : x.self.id = m.id)

include hm hinj hx

end

end SkitPage.Page
