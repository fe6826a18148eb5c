import Mathlib.Data.List.Basic
import SkitPage.Page.Blueprint

/-!
# Scripts that become pages

A script becomes a page if it has a state, every state has one presence for each declared character,
every interaction leads to a state that exists, and there are keys for everything on the page
(`Blueprint.ofScript_eq_ok`).

Key theorems: `Script.fault?_eq_none`, `Blueprint.ofScript_eq_ok`.
-/

namespace SkitPage

theorem State.fault?_eq_none {declared count index : Nat} {st : State} :
    st.fault? declared count index = none ↔
      st.presences.length = declared ∧ ∀ t ∈ st.interaction.targets, t < count := by
  unfold fault?
  split
  · rename_i h
    simp [h]
  · rename_i h
    simp [not_not.mp h]

namespace Script

theorem statesFault?_eq_none {declared count : Nat} : ∀ {states : List State} {index : Nat},
    statesFault? declared count index states = none ↔
      ∀ st ∈ states, st.presences.length = declared ∧ ∀ t ∈ st.interaction.targets, t < count
  | [], _ => by simp [statesFault?]
  | st :: states, index => by
    rw [statesFault?, Option.or_eq_none_iff, State.fault?_eq_none, statesFault?_eq_none,
      List.forall_mem_cons]

theorem fault?_eq_none {s : Script} :
    s.fault? = none ↔ s.states ≠ [] ∧ ∀ st ∈ s.states,
      st.presences.length = s.characters.length ∧ ∀ t ∈ st.interaction.targets, t < s.states.length := by
  unfold fault?
  split
  · rename_i h
    simp [List.isEmpty_iff.mp h]
  · rename_i h
    rw [statesFault?_eq_none]
    simp_all

end Script

theorem toOption_eq_some {ε α : Type} {x : Except ε α} {a : α} : x.toOption = some a ↔ x = .ok a := by
  cases x <;> simp [Except.toOption]

/-- Which scripts become pages, and which page each becomes. -/
theorem Blueprint.ofScript_eq_ok {s : Script} {b : Blueprint} :
    ofScript s = .ok b ↔ s.fault? = none ∧ ∃ l, s.ledger? = some l ∧ b = draw s l := by
  unfold ofScript
  split
  · rename_i h
    simp [h]
  · rename_i h
    split
    · rename_i hl
      simp [h, hl]
    · rename_i l hl
      simp [h, hl, eq_comm]

/-- A script with a choice, a way on and a way back, in which two characters come and go. -/
def Script.outing : Script where
  characters := [⟨"ann", "Ann"⟩, ⟨"bob", "Bob"⟩]
  states := [
    ⟨some "beach", [.entering "fade" "happy", .absent], ["ann"], none, .menu [⟨[], 1⟩, ⟨[], 2⟩]⟩,
    ⟨some "forest", [.present "sad", .present "happy"], [], none, .dismiss 2⟩,
    ⟨none, [.exiting "slide" "sad", .absent], [], none, .dismiss 0⟩]

theorem Blueprint.ofScript_outing : ∃ b, ofScript .outing = .ok b := by
  obtain ⟨l, hl⟩ := Option.isSome_iff_exists.mp (by decide : Script.outing.ledger?.isSome)
  exact ⟨_, ofScript_eq_ok.mpr ⟨by decide, l, hl, rfl⟩⟩

end SkitPage
