import SkitPage.Proofs.Discovery

/-!
# Animations follow the current state

While the scene of a state is targeted, or nothing is and the state is the first, a character plays an
animation if one of its slots in the state says so (`Blueprint.animations_follow_state`). There is one rule
for each animation of a direction, in order of first use, and it speaks for all characters.

A rule has up to two selectors for a character. The first asks for a targeted element with the mark of the
motion. The second is there if the first state has the mark, and asks that nothing before the character is
targeted. Since every scene is before every character, the two come to one question: whether the current
state has the mark (`Page.exists_selects_motion`).

Key definitions: `Page.motionMixin`, `Page.animationRule`, `Rule.animates`, `Presence.Plays`,
`Script.MotionAt`, `Blueprint.plays`.
Key theorems: `Page.filter_animates_rules`, `Page.mem_motionSelectors`, `Page.exists_selects_motion`,
`Script.firstUses_animations`, `Blueprint.animations_follow_state`.
-/

namespace SkitPage

/-! ### Rules of animations -/

namespace Page

/-- The mixin of a motion. -/
def motionMixin (m : Motion) : String := m.animation ++ "-" ++ directionName m.direction ++ "-animation"

/-- The rule of a motion, for all characters. -/
def animationRule (s : Script) (n : Naming) (m : Motion) : Rule :=
  ⟨s.cast.flatMap fun c => motionSelectors s n m c.normalized, [motionMixin m]⟩

theorem animationRules_eq (s : Script) (n : Naming) (d : Direction) :
    animationRules s n d = (s.animations d).map fun a => animationRule s n ⟨d, a⟩ := rfl

/-- How the mixins of a direction end. -/
def mixinEnd (d : Direction) : List Char := ("-" ++ directionName d ++ "-animation").toList

theorem toList_motionMixin (m : Motion) : (motionMixin m).toList = m.animation.toList ++ mixinEnd m.direction := by
  simp [motionMixin, mixinEnd]

theorem motionMixin_inj {d : Direction} {a a' : String} :
    motionMixin ⟨d, a⟩ = motionMixin ⟨d, a'⟩ ↔ a = a' := by
  rw [← String.toList_inj, toList_motionMixin, toList_motionMixin, List.append_left_inj, String.toList_inj]

end Page

/-- Whether a rule applies an animation of a direction. -/
def Rule.animates (d : Direction) (r : Rule) : Bool :=
  r.mixins.any fun m => (Page.mixinEnd d).isSuffixOf m.toList

namespace Page

variable {s : Script} {n : Naming} {d : Direction}

theorem animates_of_mixin (m : Motion) {r : Rule} (h : motionMixin m ∈ r.mixins) :
    r.animates m.direction = true := by
  refine List.any_eq_true.mpr ⟨_, h, List.isSuffixOf_iff_suffix.mpr ?_⟩
  rw [toList_motionMixin]
  exact List.suffix_append _ _

/-- No mixin is of both directions. -/
theorem not_animates_of_ne {m : Motion} (h : m.direction ≠ d) : (animationRule s n m).animates d = false := by
  rw [Bool.eq_false_iff]
  intro hend
  have hend : mixinEnd d <:+ (motionMixin m).toList := by simpa [animationRule, Rule.animates] using hend
  have hown : mixinEnd m.direction <:+ (motionMixin m).toList := by
    rw [toList_motionMixin]
    exact List.suffix_append _ _
  have hapart : ∀ d d', d ≠ d' → ¬ mixinEnd d <:+ mixinEnd d' := by
    intro d d'
    cases d <;> cases d' <;> decide
  rcases List.suffix_or_suffix_of_suffix hown hend with h' | h'
  · exact hapart _ _ h h'
  · exact hapart _ _ h.symm h'

theorem filter_animates_animationRules (d d' : Direction) :
    (animationRules s n d').filter (·.animates d) = if d' = d then animationRules s n d else [] := by
  rw [animationRules_eq]
  split
  · rename_i h
    subst h
    refine List.filter_eq_self.mpr fun r hr => ?_
    obtain ⟨a, -, rfl⟩ := List.mem_map.mp hr
    exact animates_of_mixin ⟨d', a⟩ (List.mem_singleton_self _)
  · rename_i h
    refine List.filter_eq_nil_iff.mpr fun r hr => ?_
    obtain ⟨a, -, rfl⟩ := List.mem_map.mp hr
    simp [not_animates_of_ne (m := ⟨d', a⟩) h]

/-- Rules whose mixins all end otherwise apply no animation. -/
theorem filter_animates_eq_nil {rules : List Rule} {mixins : List String}
    (hrules : ∀ r ∈ rules, ∀ m ∈ r.mixins, m ∈ mixins)
    (hmixins : ∀ d, ∀ m ∈ mixins, (mixinEnd d).isSuffixOf m.toList = false) :
    rules.filter (·.animates d) = [] := by
  refine List.filter_eq_nil_iff.mpr fun r hr h => ?_
  obtain ⟨m, hm, hend⟩ := List.any_eq_true.mp h
  rw [hmixins d m (hrules r hr m hm)] at hend
  cases hend

/-- The rules that apply animations of a direction are the rules of its animations. -/
theorem filter_animates_rules : (rules s n).filter (·.animates d) = animationRules s n d := by
  have hstates : (stateRules n s.states.length).filter (·.animates d) = [] :=
    filter_animates_eq_nil (fun _ hr _ hm => mixin_stateRules hr hm) (by intro d; cases d <;> decide)
  have hbackgrounds : (activationRules (n.className .backgrounds) "background" .beside
      (backgroundMembers s n)).filter (·.animates d) = [] :=
    filter_animates_eq_nil (fun _ hr _ hm => mixin_activationRules hr hm) (by intro d; cases d <;> decide)
  have hcharacters : (activationRules (n.className .characters) "character" .beside
      (characterMembers s n)).filter (·.animates d) = [] :=
    filter_animates_eq_nil (fun _ hr _ hm => mixin_activationRules hr hm) (by intro d; cases d <;> decide)
  have hemotes : (activationRules (n.className .emotes) "emote" .within
      (emoteMembers s n)).filter (·.animates d) = [] :=
    filter_animates_eq_nil (fun _ hr _ hm => mixin_activationRules hr hm) (by intro d; cases d <;> decide)
  rw [rules]
  simp only [List.filter_append, hstates, hbackgrounds, hcharacters, hemotes, filter_animates_animationRules]
  cases d <;> simp

/-- A rule applies the mixin of a motion if it is the rule of that motion, and the script has the motion. -/
theorem mixin_mem_rules {a : String} {r : Rule} :
    r ∈ rules s n ∧ motionMixin ⟨d, a⟩ ∈ r.mixins ↔ a ∈ s.animations d ∧ r = animationRule s n ⟨d, a⟩ := by
  constructor
  · rintro ⟨hr, hm⟩
    have hr : r ∈ (rules s n).filter (·.animates d) := List.mem_filter.mpr ⟨hr, animates_of_mixin ⟨d, a⟩ hm⟩
    rw [filter_animates_rules, animationRules_eq] at hr
    obtain ⟨a', ha', rfl⟩ := List.mem_map.mp hr
    have heq : motionMixin ⟨d, a⟩ = motionMixin ⟨d, a'⟩ := List.mem_singleton.mp hm
    obtain rfl := motionMixin_inj.mp heq
    exact ⟨ha', rfl⟩
  · rintro ⟨ha, rfl⟩
    have hr : animationRule s n ⟨d, a⟩ ∈ animationRules s n d := by
      rw [animationRules_eq]
      exact List.mem_map_of_mem ha
    rw [← filter_animates_rules] at hr
    exact ⟨List.mem_of_mem_filter hr, List.mem_singleton_self _⟩

theorem any_mixin_rules {a : String} {f : Rule → Bool} :
    (rules s n).any (fun r => r.mixins.contains (motionMixin ⟨d, a⟩) && f r) = true ↔
      a ∈ s.animations d ∧ f (animationRule s n ⟨d, a⟩) = true := by
  simp only [List.any_eq_true, Bool.and_eq_true, List.contains_iff_mem, ← and_assoc, mixin_mem_rules]
  constructor
  · rintro ⟨r, ⟨ha, rfl⟩, hf⟩
    exact ⟨ha, hf⟩
  · rintro ⟨ha, hf⟩
    exact ⟨_, ⟨ha, rfl⟩, hf⟩

end Page

/-! ### What slots say about motions -/

/-- Whether a character comes or goes with the animation of a name. -/
def Presence.Plays (d : Direction) (name : String) (q : Presence) : Prop :=
  match d with
  | .entry => ∃ e, q = .entering name e
  | .exit => ∃ e, q = .exiting name e

theorem Presence.plays_iff {d : Direction} {name : String} {q : Presence} :
    q.Plays d name ↔ q.motion? = some ⟨d, name⟩ := by
  cases q <;> cases d <;> simp [Plays, motion?]

theorem Presence.Plays.ne_absent {d : Direction} {name : String} {q : Presence} (h : q.Plays d name) :
    q ≠ .absent := by
  rintro rfl
  cases d <;> simp [Plays] at h

theorem State.motion_mem_marks {declared : List Character} {st : State} {name : String} {m : Motion} :
    Mark.motion name m ∈ st.marks declared ↔ st.HasSlot declared name (·.Plays m.direction m.animation) := by
  simp only [mem_marks, Appearance.mem_marks, reduceCtorEq, false_or, and_false, exists_false, or_false,
    Mark.motion.injEq]
  constructor
  · rintro ⟨a, ha, v, hv, rfl, rfl⟩
    obtain ⟨k, c, q, hc, hq, rfl, hm, -⟩ := mem_appearances.mp ha
    exact ⟨k, _, q, hc, rfl, hq, Presence.plays_iff.mpr (hm.symm.trans hv)⟩
  · rintro ⟨k, c, q, hc, rfl, hq, hplays⟩
    obtain ⟨e, he⟩ := Presence.ne_absent_iff.mp hplays.ne_absent
    refine ⟨⟨c, q.motion?, e⟩, mem_appearances.mpr ⟨k, c, q, hc, hq, rfl, rfl, he⟩, m, ?_, rfl, rfl⟩
    exact Presence.plays_iff.mp hplays

namespace Script

variable {s : Script} {d : Direction}

/-- At a slot a character comes or goes with the animation of a name. -/
def MotionAt (s : Script) (d : Direction) (p : ℕ ×ₗ ℕ) (name : String) : Prop :=
  ∃ c q, s.slot? p = some (c, q) ∧ q.Plays d name

/-- The animations of a direction are in the order of first use. -/
theorem firstUses_animations : FirstUses (s.MotionAt d) (s.animations d) := by
  have hanimations : ((s.appearances.filterMap (·.motion)).filter (·.direction == d)).map (·.animation) =
      s.appearances.filterMap fun a => a.motion.bind fun m =>
        if m.direction = d then some m.animation else none := by
    rw [← List.filterMap_eq_map, List.filterMap_filter, List.filterMap_filterMap]
    simp
  rw [animations, hanimations]
  refine (s.firstUses_appearances _).congr fun p name => ?_
  constructor
  · rintro ⟨c, q, hslot, hplays⟩
    obtain ⟨e, -, ha⟩ := SeenAt.placed ⟨hslot, hplays.ne_absent⟩
    refine ⟨_, ha, ?_⟩
    simp [Presence.plays_iff.mp hplays]
  · rintro ⟨a, ha, hname⟩
    obtain ⟨q, hseen, hm, -⟩ := seenAt_of_placed ha
    refine ⟨_, q, hseen.1, Presence.plays_iff.mpr ?_⟩
    obtain ⟨⟨d', a'⟩, hmotion, hd⟩ := Option.bind_eq_some_iff.mp hname
    obtain ⟨rfl, rfl⟩ : d' = d ∧ a' = name := by simpa using hd
    exact hm.symm.trans hmotion

/-- A mark of a motion is on a state only if the script has the motion. -/
theorem moves_of_mark {st : State} (hst : st ∈ s.states) {c : String} {m : Motion}
    (h : Mark.motion c m ∈ st.marks s.characters) : Page.moves s c m = true := by
  obtain h | ⟨b, -, h⟩ | ⟨a, ha, hm⟩ := State.mem_marks.mp h
  · cases h
  · cases h
  · obtain h | ⟨v, hv, h⟩ | h := Appearance.mem_marks.mp hm
    · cases h
    · obtain ⟨rfl, rfl⟩ := Mark.motion.inj h
      exact moves_iff.mpr ⟨a, List.mem_flatMap.mpr ⟨st, hst, ha⟩, rfl, hv⟩
    · cases h

end Script

/-! ### What the selectors of a motion say -/

namespace Page

variable {s : Script} {n : Naming} {v : View} {x : Spot} {m : Motion}

/-- The element with an id while nothing before it is targeted. -/
def whenIdle (id : String) : Selector :=
  .compound [.hasId id, .not [.related (.compound [.target]) .sibling [.any]]]

theorem selects_whenIdle {id : String} : (whenIdle id).selects v x = true ↔
    x.self.id = id ∧ ∀ y ∈ Reach.beside.sources x, v.fragment ≠ some y.self.id := by
  simp [whenIdle, Selector.selects, Simple.holdAll, Simple.holds, Selector.selectsAny, Reach.sources]

/-- A character that moves in a certain way has one selector for it, and a second one if the first state
has the mark. -/
theorem mem_motionSelectors {c : String} {sel : Selector} : sel ∈ motionSelectors s n m c ↔
    moves s c m = true ∧ (sel = (member s n (.character c) (.motion c m)).whenShown .beside ∨
      s.isInitial (.motion c m) = true ∧ sel = whenIdle (n.id (.character c))) := by
  unfold motionSelectors
  split
  · rename_i hmoves
    dsimp only
    split
    · rename_i hinitial
      simp [hmoves, hinitial, whenIdle, Member.whenShown, member, Reach.select]
    · rename_i hinitial
      simp [hmoves, hinitial, Member.whenShown, member, Reach.select]
  · rename_i hmoves
    simp [hmoves]

variable {l : Ledger} {i : Nat} {st : State}

/-- **The current state decides.** A selector of a motion selects an actor in its place if it is one of the
actor's own, and the current state has the mark of the motion. -/
theorem exists_selects_motion (hl : s.ledger? = some l) (hi : s.states[i]? = some st)
    (hv : v.fragment = some ((s.naming l).id (.state i)) ∨ v.fragment = none ∧ i = 0)
    {k : Nat} (hk : (ofScript s (s.naming l)).scenes.length ≤ k)
    (hx : Reach.beside.sources x = Spot.siblings [] ((ofScript s (s.naming l)).before k)) {c : String}
    (hid : x.self.id = (s.naming l).id (.character c)) :
    (∃ sel ∈ motionSelectors s (s.naming l) m c, sel.selects v x = true) ↔
      Mark.motion c m ∈ st.marks s.characters := by
  rcases hv with hv | ⟨hv, rfl⟩
  · -- the targeted element is the scene, which is before the actor, so only the first selector counts
    have hshown : moves s c m = true → ((∃ y ∈ Reach.beside.sources x, v.fragment = some y.self.id ∧
        (s.naming l).className (.motion c m) ∈ y.self.classes) ↔ Mark.motion c m ∈ st.marks s.characters) := by
      intro hmoves
      rw [← className_mem_scene hl hi (Script.motion_mem_markOrder hmoves)]
      exact exists_targeted_iff hl hi hv hk hx
    obtain ⟨y, hy, hf, -⟩ := (exists_targeted_iff (q := fun _ => True) hl hi hv hk hx).mpr trivial
    constructor
    · rintro ⟨sel, hsel, hselects⟩
      obtain ⟨hmoves, rfl | ⟨-, rfl⟩⟩ := mem_motionSelectors.mp hsel
      · exact (hshown hmoves).mp (selects_whenShown.mp hselects).2
      · exact absurd hf ((selects_whenIdle.mp hselects).2 y hy)
    · intro hmark
      have hmoves := Script.moves_of_mark (List.mem_of_getElem? hi) hmark
      refine ⟨_, mem_motionSelectors.mpr ⟨hmoves, Or.inl rfl⟩, selects_whenShown.mpr ⟨hid, ?_⟩⟩
      exact (hshown hmoves).mpr hmark
  · -- nothing is targeted, so only the second selector counts
    rw [← Script.isInitial_iff hi]
    constructor
    · rintro ⟨sel, hsel, hselects⟩
      obtain ⟨-, rfl | ⟨hinitial, rfl⟩⟩ := mem_motionSelectors.mp hsel
      · obtain ⟨-, y, -, hf, -⟩ := selects_whenShown.mp hselects
        simp [hv] at hf
      · exact hinitial
    · intro hinitial
      have hmoves := Script.moves_of_mark (List.mem_of_getElem? hi) ((Script.isInitial_iff hi).mp hinitial)
      refine ⟨_, mem_motionSelectors.mpr ⟨hmoves, Or.inr ⟨hinitial, rfl⟩⟩, selects_whenIdle.mpr ⟨hid, ?_⟩⟩
      simp [hv]

/-- Of a rule of a motion, only the selectors of a character can select its actor. -/
theorem selects_animationRule (hl : s.ledger? = some l) {c : Character} (hc : c ∈ s.cast)
    (hid : x.self.id = (s.naming l).id (.character c.normalized)) :
    (∃ sel ∈ (animationRule s (s.naming l) m).selectors, sel.selects v x = true) ↔
      ∃ sel ∈ motionSelectors s (s.naming l) m c.normalized, sel.selects v x = true := by
  constructor
  · rintro ⟨sel, hsel, hselects⟩
    obtain ⟨c', hc', hsel⟩ := List.mem_flatMap.mp hsel
    have hid' : x.self.id = (s.naming l).id (.character c'.normalized) := by
      obtain ⟨-, rfl | ⟨-, rfl⟩⟩ := mem_motionSelectors.mp hsel
      · exact (selects_whenShown.mp hselects).1
      · exact (selects_whenIdle.mp hselects).1
    have hsame := (Script.naming_id_inj hl (Script.character_mem_elementOrder hc')
      (Script.character_mem_elementOrder hc)).mp (hid'.symm.trans hid)
    rw [Entity.character.inj hsame] at hsel
    exact ⟨sel, hsel, hselects⟩
  · rintro ⟨sel, hsel, hselects⟩
    exact ⟨sel, List.mem_flatMap.mpr ⟨c, hc, hsel⟩, hselects⟩

end Page

namespace Blueprint

open Page

/-- Whether a rule that applies an animation selects the actor at a position. -/
def plays (b : Blueprint) (v : View) (j : Nat) (m : Motion) : Bool :=
  (b.page.actorSpot? j).any fun x =>
    b.rules.any fun r => r.mixins.contains (motionMixin m) && r.selectors.any (·.selects v x)

variable {s : Script} {l : Ledger} {v : View} {i : Nat} {st : State}

theorem plays_iff (hl : s.ledger? = some l) (hi : s.states[i]? = some st)
    (hv : v.fragment = some ((s.naming l).id (.state i)) ∨ v.fragment = none ∧ i = 0) {j : Nat} {a : Actor}
    (hj : (draw s l).page.actors[j]? = some a) {d : Direction} {name : String} :
    (draw s l).plays v j ⟨d, name⟩ = true ↔ st.HasSlot s.characters a.normalized (·.Plays d name) := by
  obtain ⟨c, hc, rfl⟩ := getElem?_actors hj
  have hused : st.HasSlot s.characters c.normalized (·.Plays d name) → name ∈ s.animations d := by
    rintro ⟨k, c', q, hc', -, hq, hplays⟩
    refine (s.firstUses_animations.mem_iff name).mpr ⟨toLex (i, k), c', q, ?_, hplays⟩
    exact Script.slot?_eq_some.mpr ⟨st, hi, hc', hq⟩
  have hrules : (draw s l).rules = Page.rules s (s.naming l) := rfl
  unfold plays
  rw [actorSpot?_eq hj, Option.any_some, hrules, any_mixin_rules, List.any_eq_true,
    selects_animationRule hl hc rfl, exists_selects_motion hl hi hv
      (Nat.le_add_right_of_le (Nat.le_add_right _ _)) rfl rfl, State.motion_mem_marks]
  exact and_iff_right_of_imp hused

/-- **Animations follow the current state.** Take a script that becomes a page, and one of its states, whose
scene is targeted, or nothing is and the state is the first. A rule with the mixin of an animation selects
an actor just if a slot of its name comes or goes with that animation in the state. For each direction, the
rules that apply its animations are one for each animation that the script uses, in order of first use, and
each applies its animation only. -/
theorem animations_follow_state {b : Blueprint} (h : ofScript s = .ok b) :
    (∀ i st v, s.states[i]? = some st →
      (∃ scene, b.page.scenes[s.scenePosition i]? = some scene ∧ v.fragment = some scene.attributes.id) ∨
        v.fragment = none ∧ i = 0 →
      ∀ j a, b.page.actors[j]? = some a → ∀ d name,
        (b.plays v j ⟨d, name⟩ = true ↔ st.HasSlot s.characters a.normalized (·.Plays d name))) ∧
    ∀ d, ∃ names, FirstUses (s.MotionAt d) names ∧
      (b.rules.filter (·.animates d)).map (·.mixins) = names.map fun name => [motionMixin ⟨d, name⟩] := by
  obtain ⟨-, l, hl, rfl⟩ := ofScript_eq_ok.mp h
  refine ⟨fun i st v hi hv j a hj d name => ?_, fun d => ⟨s.animations d, s.firstUses_animations, ?_⟩⟩
  · have hv' : v.fragment = some ((s.naming l).id (.state i)) ∨ v.fragment = none ∧ i = 0 := by
      rcases hv with ⟨sc, hsc, hf⟩ | hv
      · obtain rfl : scene s (s.naming l) st i = sc := Option.some.inj ((getElem?_scenes hi).symm.trans hsc)
        exact Or.inl hf
      · exact Or.inr hv
    exact plays_iff hl hi hv' hj
  · rw [show (draw s l).rules = Page.rules s (s.naming l) from rfl, filter_animates_rules, animationRules_eq,
      List.map_map]
    rfl

/-- Ann fades in while nothing is targeted, and a namesake fades out in the second state, whose scene comes
first. -/
theorem animations_follow_namesakes : ∃ b scene, ofScript .namesakes = .ok b ∧
    b.page.scenes[0]? = some scene ∧
    (∀ v : View, v.fragment = none →
      b.plays v 1 ⟨.entry, "fade"⟩ = true ∧ b.plays v 1 ⟨.exit, "fade"⟩ = false) ∧
    (∀ v : View, v.fragment = some scene.attributes.id →
      b.plays v 1 ⟨.entry, "fade"⟩ = false ∧ b.plays v 1 ⟨.exit, "fade"⟩ = true) ∧
    ∃ names, FirstUses (Script.namesakes.MotionAt .exit) names ∧
      (b.rules.filter (·.animates .exit)).map (·.mixins) = names.map fun name => [motionMixin ⟨.exit, name⟩] := by
  obtain ⟨b, hb⟩ := ofScript_namesakes
  obtain ⟨-, l, -, rfl⟩ := ofScript_eq_ok.mp hb
  obtain ⟨hplays, hrules⟩ := animations_follow_state hb
  have hoff : ∀ {st : State} {d : Direction}, (∀ q ∈ st.presences, ¬ q.Plays d "fade") →
      ¬ st.HasSlot Script.namesakes.characters "ann" (·.Plays d "fade") := by
    rintro st d hnone ⟨k, c, q, -, -, hq, hplays⟩
    exact hnone q (List.mem_of_getElem? hq) hplays
  refine ⟨_, _, hb, rfl, fun v hv => ?_, fun v hv => ?_, hrules .exit⟩
  · have h := hplays 0 _ v rfl (Or.inr ⟨hv, rfl⟩) 1 _ rfl
    refine ⟨(h .entry "fade").mpr ⟨2, _, _, rfl, rfl, rfl, _, rfl⟩, Bool.eq_false_iff.mpr fun hon => ?_⟩
    exact hoff (by simp [Presence.Plays]) ((h .exit "fade").mp hon)
  · have h := hplays 1 _ v rfl (Or.inl ⟨_, rfl, hv⟩) 1 _ rfl
    refine ⟨Bool.eq_false_iff.mpr fun hon => ?_, (h .exit "fade").mpr ⟨0, _, _, rfl, rfl, rfl, _, rfl⟩⟩
    exact hoff (by simp [Presence.Plays]) ((h .entry "fade").mp hon)

end Blueprint

end SkitPage
