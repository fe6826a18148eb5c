import Mathlib.Logic.Function.Basic
import SkitPage.Proofs.Display
import SkitPage.Proofs.Findings

/-!
# Scripts that are refused

A script is refused for the first fault of its first state that is not sound, or because it has no states
(`Script.fault?_eq_some`). Any other script has a blueprint, unless it needs more keys than can be counted
in 32 bits (`Ledger.ofRoles?_eq_none`). The checks are all that a walk over the script needs: a reading
that looks states, characters and ids up by position comes to the same blueprint or the same fault, and
never to a position that is out of range (`Blueprint.readByPosition_eq`).

Key definitions: `State.Sound`, `Script.FirstFault`, `Blueprint.readByPosition`.
Key theorems: `Script.fault?_eq_some`, `Ledger.ofRoles?_eq_none`, `Blueprint.readByPosition_eq`,
`Blueprint.ofScript_refuses`.
-/

namespace SkitPage

/-! ### The first fault -/

/-- A state that may stand in a script with so many declared characters and states. -/
def State.Sound (declared count : Nat) (st : State) : Prop :=
  st.presences.length = declared ∧ ∀ t ∈ st.interaction.targets, t < count

/-- The fault that a script is refused for: the first fault of the first state that is not sound. -/
inductive Script.FirstFault (s : Script) : ScriptError → Prop
  | noStates : s.states = [] → FirstFault s .noStates
  | presenceCount {before after : List State} {st : State} : s.states = before ++ st :: after →
      (∀ b ∈ before, b.Sound s.characters.length s.states.length) →
      st.presences.length ≠ s.characters.length →
      FirstFault s (.presenceCount before.length st.presences.length s.characters.length)
  | targetOutOfRange {before after : List State} {st : State} {early late : List Nat} {t : Nat} :
      s.states = before ++ st :: after → (∀ b ∈ before, b.Sound s.characters.length s.states.length) →
      st.presences.length = s.characters.length → st.interaction.targets = early ++ t :: late →
      (∀ e ∈ early, e < s.states.length) → s.states.length ≤ t →
      FirstFault s (.targetOutOfRange before.length t s.states.length)

theorem State.fault?_eq_some {declared count index : Nat} {st : State} {e : ScriptError} :
    st.fault? declared count index = some e ↔
      (st.presences.length ≠ declared ∧ e = .presenceCount index st.presences.length declared) ∨
      (st.presences.length = declared ∧ ∃ early t late, st.interaction.targets = early ++ t :: late ∧
        (∀ x ∈ early, x < count) ∧ count ≤ t ∧ e = .targetOutOfRange index t count) := by
  unfold State.fault?
  split
  case isTrue h => simp [h, eq_comm]
  case isFalse h =>
    have h := not_not.mp h
    simp only [h, ne_eq, not_true_eq_false, false_and, true_and, false_or, Option.map_eq_some_iff,
      List.find?_eq_some_iff_append, decide_eq_true_eq, Bool.not_eq_eq_eq_not, Bool.not_true,
      decide_eq_false_iff_not, Nat.not_le]
    constructor
    · rintro ⟨t, ⟨ht, early, late, htargets, hearly⟩, rfl⟩
      exact ⟨early, t, late, htargets, hearly, ht, rfl⟩
    · rintro ⟨early, t, late, htargets, hearly, ht, rfl⟩
      exact ⟨t, ⟨ht, early, late, htargets, hearly⟩, rfl⟩

namespace Script

theorem statesFault?_eq_some {declared count : Nat} {e : ScriptError} : ∀ {states : List State} {index : Nat},
    statesFault? declared count index states = some e ↔
      ∃ before st after, states = before ++ st :: after ∧ (∀ b ∈ before, b.Sound declared count) ∧
        st.fault? declared count (index + before.length) = some e
  | [], _ => by simp [statesFault?]
  | st :: states, index => by
    rw [statesFault?, Option.or_eq_some_iff, State.fault?_eq_none, statesFault?_eq_some]
    constructor
    · rintro (h | ⟨hst, before, st', after, rfl, hbefore, h⟩)
      · exact ⟨[], st, states, rfl, List.forall_mem_nil _, h⟩
      · refine ⟨st :: before, st', after, rfl, List.forall_mem_cons.mpr ⟨hst, hbefore⟩, ?_⟩
        rw [List.length_cons, Nat.add_comm before.length, ← Nat.add_assoc]
        exact h
    · rintro ⟨before, st', after, hstates, hbefore, h⟩
      cases before with
      | nil =>
        obtain ⟨rfl, -⟩ := List.cons.inj hstates
        exact .inl h
      | cons b before =>
        obtain ⟨rfl, rfl⟩ := List.cons.inj hstates
        obtain ⟨hst, hbefore⟩ := List.forall_mem_cons.mp hbefore
        refine .inr ⟨hst, before, st', after, rfl, hbefore, ?_⟩
        rw [List.length_cons, Nat.add_comm before.length, ← Nat.add_assoc] at h
        exact h

theorem fault?_eq_some {s : Script} {e : ScriptError} : s.fault? = some e ↔ s.FirstFault e := by
  unfold fault?
  split
  case isTrue hempty =>
    have hnil := List.isEmpty_iff.mp hempty
    constructor
    · rintro ⟨⟩
      exact .noStates hnil
    · intro h
      cases h with
      | noStates => rfl
      | presenceCount hstates => simp [hnil] at hstates
      | targetOutOfRange hstates => simp [hnil] at hstates
  case isFalse hempty =>
    rw [statesFault?_eq_some]
    constructor
    · rintro ⟨before, st, after, hstates, hbefore, h⟩
      rw [Nat.zero_add] at h
      obtain ⟨hcount, rfl⟩ | ⟨hcount, early, t, late, htargets, hearly, ht, rfl⟩ := State.fault?_eq_some.mp h
      · exact .presenceCount hstates hbefore hcount
      · exact .targetOutOfRange hstates hbefore hcount htargets hearly ht
    · intro h
      cases h with
      | noStates hnil => simp [hnil] at hempty
      | presenceCount hstates hbefore hcount =>
        refine ⟨_, _, _, hstates, hbefore, State.fault?_eq_some.mpr (.inl ⟨hcount, ?_⟩)⟩
        rw [Nat.zero_add]
      | targetOutOfRange hstates hbefore hcount htargets hearly ht =>
        refine ⟨_, _, _, hstates, hbefore, State.fault?_eq_some.mpr (.inr ⟨hcount, ?_⟩)⟩
        exact ⟨_, _, _, htargets, hearly, ht, by rw [Nat.zero_add]⟩

end Script

/-! ### Running out of keys -/

namespace Ledger

theorem lookup_eq_none {l : Ledger} {r : Role} : l.entries.lookup r = none ↔ r ∉ l.entries.map (·.1) := by
  rw [List.lookup_eq_none_iff, List.mem_map]
  constructor
  · rintro h ⟨p, hp, rfl⟩
    exact bne_iff_ne.mp (h p hp) rfl
  · intro h p hp
    exact bne_iff_ne.mpr fun heq => h ⟨p, hp, heq.symm⟩

/-- The keys run out at a new role, where every number but the last was handed out. -/
theorem note?_eq_none {l : Ledger} (hl : l.Numbered) {r : Role} :
    l.note? r = none ↔ r ∉ l.entries.map (·.1) ∧ l.entries.length + 1 = UInt32.size := by
  have hlast : l.source.issued + 1 = 0 ↔ l.entries.length + 1 = UInt32.size := by
    have hlt := l.source.issued.toNat_lt_size
    rw [← UInt32.toNat_inj, UInt32.toNat_add, UInt32.toNat_one, UInt32.toNat_zero]
    rw [hl.count] at hlt ⊢
    simp only [UInt32.size] at hlt ⊢
    omega
  rw [← hlast, ← lookup_eq_none]
  unfold note? KeySource.next?
  cases l.entries.lookup r with
  | some k => simp
  | none => simp

theorem roles_note? {l l' : Ledger} {r : Role} {seen : List Role} (hl : l.entries.map (·.1) = seen.eraseDups)
    (h : l.note? r = some l') : l'.entries.map (·.1) = (seen ++ [r]).eraseDups := by
  have hmem : r ∈ l.entries.map (·.1) ↔ r ∈ seen := by rw [hl, List.mem_eraseDups]
  rw [eraseDups_concat]
  obtain ⟨⟨k, hk⟩, rfl⟩ | ⟨hnew, -, rfl⟩ := note?_cases h
  · have hseen : r ∈ seen := by
      refine hmem.mp (not_not.mp fun hnew => ?_)
      rw [lookup_eq_none.mpr hnew] at hk
      cases hk
    rw [if_pos hseen, hl]
  · rw [if_neg fun hseen => lookup_eq_none.mp hnew (hmem.mpr hseen), List.map_append, hl]
    rfl

/-- The invariant of the walk: the ledger has one entry for each role that was needed so far. -/
theorem foldlM_note?_eq_none : ∀ (rs : List Role) {l : Ledger} {seen : List Role}, l.Numbered →
    l.entries.map (·.1) = seen.eraseDups →
    (rs.foldlM note? l = none ↔ UInt32.size ≤ (seen ++ rs).eraseDups.length)
  | [], l, seen, hl, hseen => by
    have hlt := l.source.issued.toNat_lt_size
    have hlength := congrArg List.length hseen
    rw [hl.count] at hlt
    rw [List.length_map] at hlength
    rw [List.append_nil, ← hlength]
    simpa using hlt
  | r :: rs, l, seen, hl, hseen => by
    have hassoc : seen ++ r :: rs = seen ++ [r] ++ rs := by simp
    rw [List.foldlM_cons, hassoc]
    cases hnote : l.note? r with
    | none =>
      obtain ⟨hnew, hfull⟩ := (note?_eq_none hl).mp hnote
      rw [hseen, List.mem_eraseDups] at hnew
      have hlength := congrArg List.length hseen
      rw [List.length_map] at hlength
      refine ⟨fun _ => ?_, fun _ => rfl⟩
      rw [List.eraseDups_append, List.length_append, eraseDups_concat, if_neg hnew, List.length_append,
        List.length_singleton, ← hlength, hfull]
      exact Nat.le_add_right ..
    | some l' => exact foldlM_note?_eq_none rs (note?_numbered hl hnote) (roles_note? hseen hnote)

theorem ofRoles?_eq_none {rs : List Role} : ofRoles? rs = none ↔ UInt32.size ≤ rs.eraseDups.length :=
  @foldlM_note?_eq_none rs {} [] numbered_empty rfl

end Ledger

/-! ### The blueprint, read by position -/

/-- The element of a character that was found. -/
def Finding.actor (declared : List Character) (n : Naming) (f : Finding) : Except Stop Actor := do
  let c ← fetch declared f.slot
  return {
    normalized := c.normalized
    verbatim := c.verbatim
    attributes := ⟨n.id (.character c.normalized), [n.className .characters]⟩
    faces := f.emotes.entries.map (Page.face n c.normalized) }

namespace Page

/-- Where a link to a state leads, from the ids of the scenes. -/
def hrefBy (ids : List String) (position : Nat) : Except Stop String := do
  return "#" ++ (← fetch ids position)

/-- The ways out of a scene, from the ids of the scenes and the position of each state's scene. -/
def exitBy (ids : List String) (place : Nat → Nat) : Interaction → Except Stop Exit
  | .dismiss t => do return .dismiss (← hrefBy ids (place t))
  | .menu options => do
    return .menu (← options.mapM fun o => do return ⟨RichText.html o.content, ← hrefBy ids (place o.target)⟩)

/-- The element of a state, from the ids of the scenes. -/
def sceneBy (s : Script) (n : Naming) (ids : List String) (p : State × Nat) : Except Stop Scene := do
  return { scene s n p.1 p.2 with exit := ← exitBy ids s.scenePosition p.1.interaction }

end Page

/-- The blueprint of a script, where states, characters and what is found are looked up by position. -/
def Blueprint.readByPosition (s : Script) : Except Stop Blueprint :=
  if s.states.isEmpty then .error (.refused .noStates)
  else do
    let fs ← s.states.zipIdx.foldlM (Findings.visit s.characters s.states.length) {}
    match s.ledger? with
    | none => .error (.refused .noKeysLeft)
    | some ledger =>
      let n := s.naming ledger
      let ids := s.pageStates.map fun (_, i) => n.id (.state i)
      let scenes ← s.pageStates.mapM (Page.sceneBy s n ids)
      let actors ← fs.characters.entries.mapM (Finding.actor s.characters n)
      let initial ← fetch ids (s.states.length - 1)
      return {
        page := { scenes, backdrops := fs.backgrounds.entries.map (Page.backdrop n), actors }
        rules := Page.rules s { n with id := Function.update n.id (.state 0) initial }
        assets := fs.backgrounds.entries.map Path.background ++ actors.flatMap fun a => a.faces.map (·.path) }

theorem mapM_eq_ok {ε α β : Type} {f : α → Except ε β} {g : α → β} : ∀ {xs : List α},
    (∀ x ∈ xs, f x = .ok (g x)) → xs.mapM f = .ok (xs.map g)
  | [], _ => rfl
  | x :: xs, h => by
    obtain ⟨hx, hxs⟩ := List.forall_mem_cons.mp h
    rw [List.mapM_cons, hx, mapM_eq_ok hxs]
    rfl

namespace Script

variable {s : Script} {n : Naming}

theorem fetch_id {t : Nat} (ht : t < s.states.length) :
    fetch (s.pageStates.map fun p => n.id (.state p.2)) (s.scenePosition t) = .ok (n.id (.state t)) := by
  rw [fetch, List.getElem?_map, getElem?_pageStates (List.getElem?_eq_getElem ht)]
  rfl

theorem exitBy_eq {interaction : Interaction} (h : ∀ t ∈ interaction.targets, t < s.states.length) :
    Page.exitBy (s.pageStates.map fun p => n.id (.state p.2)) s.scenePosition interaction =
      .ok (Page.exit n interaction) := by
  have hhref : ∀ t < s.states.length,
      Page.hrefBy (s.pageStates.map fun p => n.id (.state p.2)) (s.scenePosition t) = .ok (Page.href n t) := by
    intro t ht
    rw [Page.hrefBy, fetch_id ht]
    rfl
  cases interaction with
  | dismiss t =>
    rw [Page.exitBy, hhref t (h t (by simp [Interaction.targets]))]
    rfl
  | menu options =>
    rw [Page.exitBy, mapM_eq_ok (g := fun o => ⟨RichText.html o.content, Page.href n o.target⟩)]
    · rfl
    · intro o ho
      rw [hhref o.target (h _ (List.mem_map_of_mem ho))]
      rfl

theorem mapM_sceneBy (h : ∀ st ∈ s.states, ∀ t ∈ st.interaction.targets, t < s.states.length) :
    s.pageStates.mapM (Page.sceneBy s n (s.pageStates.map fun p => n.id (.state p.2))) =
      .ok (s.pageStates.map fun (st, i) => Page.scene s n st i) := by
  refine mapM_eq_ok fun (st, i) hp => ?_
  have hst : st ∈ s.states := List.mem_of_getElem? (mem_pageStates.mp hp)
  rw [Page.sceneBy, exitBy_eq (h st hst)]
  rfl

theorem mapM_actor : ∀ {found : List Finding} {cast : List Character},
    found.map (Finding.view s.characters) = cast.map (fun c => (some c, s.emotes c.normalized)) →
    found.mapM (Finding.actor s.characters n) = .ok (cast.map (Page.actor s n))
  | [], [], _ => rfl
  | f :: found, c :: cast, h => by
    obtain ⟨hf, hfound⟩ := List.cons.inj h
    obtain ⟨hc, hemotes⟩ : s.characters[f.slot]? = some c ∧ f.emotes.entries = s.emotes c.normalized :=
      Prod.mk.inj hf
    have hactor : f.actor s.characters n = .ok (Page.actor s n c) := by
      rw [Finding.actor, fetch, hc, hemotes]
      rfl
    rw [List.mapM_cons, hactor, mapM_actor hfound]
    rfl

theorem assets_of_actors : (s.backgrounds.map Path.background ++
    (s.cast.map (Page.actor s n)).flatMap fun a => a.faces.map (·.path)) = s.assets := by
  simp [assets, List.flatMap_map, Page.actor, Page.face, Function.comp_def]

end Script

/-- **No position is out of range.** A reading by position refuses the scripts that are refused, for the
same reasons, and gives the same blueprints for all others. -/
theorem Blueprint.readByPosition_eq (s : Script) : readByPosition s = (ofScript s).mapError .refused := by
  unfold readByPosition ofScript Script.fault?
  by_cases hempty : s.states.isEmpty = true
  · rw [if_pos hempty, if_pos hempty]
    rfl
  rw [if_neg hempty, if_neg hempty]
  have hwalk := Findings.foldlM_visit s.states.length s.states 0 (Findings.holds_empty s.characters)
  cases hfault : Script.statesFault? s.characters.length s.states.length 0 s.states with
  | some e =>
    rw [hfault] at hwalk
    rw [hwalk]
    rfl
  | none =>
    rw [hfault] at hwalk
    obtain ⟨fs, hfs, hholds⟩ := hwalk
    rw [List.nil_append] at hholds
    rw [hfs]
    dsimp only [bind, Except.bind]
    cases s.ledger? with
    | none => rfl
    | some ledger =>
      have hsound := Script.statesFault?_eq_none.mp hfault
      have hpos : 0 < s.states.length := List.length_pos_iff.mpr (by simpa using hempty)
      have hinitial : fetch (s.pageStates.map fun p => (s.naming ledger).id (.state p.2)) (s.states.length - 1) =
          .ok ((s.naming ledger).id (.state 0)) := Script.fetch_id hpos
      have hactors : fs.characters.entries.mapM (Finding.actor s.characters (s.naming ledger)) =
          .ok (s.cast.map (Page.actor s (s.naming ledger))) := Script.mapM_actor hholds.characters.views
      have hbackgrounds : fs.backgrounds.entries = s.backgrounds := hholds.backgrounds
      dsimp only
      rw [Script.mapM_sceneBy fun st hst => (hsound st hst).2, hactors, hinitial]
      dsimp only [bind, Except.bind]
      rw [hbackgrounds, Function.update_eq_self, Script.assets_of_actors]
      rfl

theorem Script.exists_firstFault {s : Script} :
    (∃ e, s.FirstFault e) ↔ s.states = [] ∨ ∃ st ∈ s.states, st.presences.length ≠ s.characters.length ∨
      ∃ t ∈ st.interaction.targets, s.states.length ≤ t := by
  simp only [← Script.fault?_eq_some]
  rw [← Option.isSome_iff_exists, ← Option.ne_none_iff_isSome, ne_eq, Script.fault?_eq_none]
  simp only [ne_eq, not_and_or, not_not, not_forall, Nat.not_lt, exists_prop]

theorem Script.FirstFault.ne_noKeysLeft {s : Script} {e : ScriptError} (h : s.FirstFault e) :
    e ≠ .noKeysLeft := by
  cases h <;> simp

theorem Blueprint.ofScript_eq_error {s : Script} {e : ScriptError} :
    ofScript s = .error e ↔
      s.FirstFault e ∨ s.fault? = none ∧ UInt32.size ≤ s.roles.eraseDups.length ∧ e = .noKeysLeft := by
  rw [← Script.fault?_eq_some, ← Ledger.ofRoles?_eq_none, ← Script.ledger?]
  unfold ofScript
  cases s.fault? with
  | some e' => simp
  | none => cases s.ledger? <;> simp [eq_comm]

/-- **Which scripts are refused, and why.** Apart from one that needs more keys than there are, a script is
refused just where it has no states, or a state with too few or too many presences, or a target that is no
state; and it is refused for the first of these faults. No position that is looked up on the way is out of
range, whether the script is refused or not. -/
theorem Blueprint.ofScript_refuses (s : Script) :
    ((∃ e, ofScript s = .error e ∧ e ≠ .noKeysLeft) ↔
      s.states = [] ∨ ∃ st ∈ s.states, st.presences.length ≠ s.characters.length ∨
        ∃ t ∈ st.interaction.targets, s.states.length ≤ t) ∧
    (∀ e, ofScript s = .error e ∧ e ≠ .noKeysLeft ↔ s.FirstFault e) ∧
    (ofScript s = .error .noKeysLeft ↔ (∀ e, ¬ s.FirstFault e) ∧ UInt32.size ≤ s.roles.eraseDups.length) ∧
    readByPosition s = (ofScript s).mapError .refused := by
  have hrefused : ∀ e, ofScript s = .error e ∧ e ≠ .noKeysLeft ↔ s.FirstFault e := by
    intro e
    rw [ofScript_eq_error]
    constructor
    · rintro ⟨h | ⟨-, -, h⟩, hne⟩
      · exact h
      · exact absurd h hne
    · intro h
      exact ⟨.inl h, h.ne_noKeysLeft⟩
  have hnone : (∀ e, ¬ s.FirstFault e) ↔ s.fault? = none := by
    simp only [← Script.fault?_eq_some, Option.eq_none_iff_forall_ne_some, ne_eq]
  refine ⟨?_, hrefused, ?_, readByPosition_eq s⟩
  · simp only [hrefused]
    exact Script.exists_firstFault
  · rw [ofScript_eq_error, hnone]
    constructor
    · rintro (h | ⟨hfault, hroles, -⟩)
      · exact absurd rfl h.ne_noKeysLeft
      · exact ⟨hfault, hroles⟩
    · rintro ⟨hfault, hroles⟩
      exact .inr ⟨hfault, hroles, rfl⟩

end SkitPage
