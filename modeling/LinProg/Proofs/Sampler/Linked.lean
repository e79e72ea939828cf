import LinProg.Proofs.Sampler.Past

namespace LinProg.Sampler

variable {α : Type}

/-- The columns of each group end with the same draw. -/
def Consistent (groups : List (List Nat)) : Prop :=
  ∀ g ∈ groups, ∀ k ∈ g, source groups k = source groups (g.headD k)

instance (groups : List (List Nat)) : Decidable (Consistent groups) :=
  inferInstanceAs (Decidable (∀ g ∈ groups, ∀ k ∈ g, source groups k = source groups (g.headD k)))

/-- The columns of each group have the component of the first of them. -/
def SharedBy (groups : List (List Nat)) (d : List α) : Prop :=
  ∀ g ∈ groups, ∀ k ∈ g, d[k]? = d[g.headD k]?

/-- After its first column no group has a column of a group before it. -/
def InOrder (groups : List (List Nat)) : Prop :=
  groups.Pairwise fun g g' => ∀ k ∈ g, k ∉ g'.tail

theorem InOrder.consistent {groups : List (List Nat)} (h : InOrder groups) :
    Consistent groups := by
  induction groups with
  | nil => simp [Consistent]
  | cons g groups ih =>
    obtain ⟨hg, hgroups⟩ := List.pairwise_cons.1 h
    have hfirst {k : Nat} (hk : k ∈ g) : source (g :: groups) k = g.headD k := by
      have hlater : source groups k = k := source_of_notMem fun g' hg' => hg g' hg' k hk
      change leader g (source groups k) = g.headD k
      rw [hlater, leader_of_mem hk]
    refine List.forall_mem_cons.2 ⟨fun k hk => ?_, fun g' hg' k hk => ?_⟩
    · rw [hfirst hk, hfirst (headD_mem hk)]
      cases g <;> rfl
    · exact congrArg (leader g) (ih hgroups g' hg' k hk)

theorem consistent_of_sharedBy {groups : List (List Nat)} {drawn d : List α}
    (hlinked : ∀ i ∈ groups.flatten, i < drawn.length) (hdrawn : drawn.Nodup)
    (hd : ∀ k, d[k]? = drawn[source groups k]?) (h : SharedBy groups d) : Consistent groups := by
  intro g hg k hk
  have hlt : source groups k < drawn.length :=
    source_lt hlinked (hlinked k (List.mem_flatten.2 ⟨g, hg, hk⟩))
  have hsame := h g hg k hk
  rw [hd, hd] at hsame
  exact (List.getElem?_inj hlt hdrawn).1 hsame

variable [Scalar α] {B : Backend α} {G : Type} {s : Sampler B G}

omit [Scalar α] in
theorem linkGroups_eq_ok {groups : List (List Nat)} (h : (linkGroups groups s).result = .ok ()) :
    (∀ i ∈ groups.flatten, i < s.dimension) ∧
      linkGroups groups s = ⟨.ok (), { s with linked := groups }, []⟩ := by
  have hlinked : ∀ i ∈ groups.flatten, i < s.dimension := by
    cases hfind : groups.flatten.find? (s.dimension ≤ ·) with
    | some i =>
      simp only [linkGroups, Call.state_bind, hfind] at h
      cases h
    | none => simpa using List.find?_eq_none.1 hfind
  exact ⟨hlinked, linkGroups_apply hlinked⟩

def drawn [Root α] (R : Randomness α G) (s : Sampler B G) : List α :=
  normalize s.config.normalization (nonzeroNormals R s.dimension tries s.generator).1

theorem length_drawn [Root α] (R : Randomness α G) (s : Sampler B G) :
    (drawn R s).length = s.dimension :=
  (List.length_map ..).trans (length_nonzeroNormals R s.dimension tries s.generator)

theorem direction_linked [Root α] (R : Randomness α G)
    (h : ∀ i ∈ s.linked.flatten, i < s.dimension) :
    ∃ d, (direction R s).result = .ok d ∧ d.length = s.dimension ∧
      ∀ k, d[k]? = (drawn R s)[source s.linked k]? := by
  obtain ⟨d, hd, hlength, hget⟩ := foldlM_link? (d := drawn R s) (by rwa [length_drawn])
  refine ⟨d, ?_, hlength.trans (length_drawn R s), hget⟩
  rw [direction, Call.state_bind]
  simp only [Call.modify_bind]
  rw [← drawn, hd]
  rfl

/-- Linked groups are applied to each direction in the order of their list. Every column ends with
the draw of its source, which is the column itself unless a group has it after its first column.
The columns of each group share a component if all of them have the source of the first one, and
where all draws differ, only then. It is so when no group has, after its first column, a column of
a group before it. -/
theorem linked_columns_follow_sources [Root α] (R : Randomness α G) {groups : List (List Nat)}
    (h : (linkGroups groups s).result = .ok ()) :
    (∃ d, (direction R (linkGroups groups s).state).result = .ok d ∧ d.length = s.dimension ∧
      (∀ k, d[k]? = (drawn R s)[source groups k]?) ∧
      (∀ k, (∀ g ∈ groups, k ∉ g.tail) → d[k]? = (drawn R s)[k]?) ∧
      (Consistent groups → SharedBy groups d) ∧
      ((drawn R s).Nodup → SharedBy groups d → Consistent groups)) ∧
    (InOrder groups → Consistent groups) := by
  obtain ⟨hlinked, hcall⟩ := linkGroups_eq_ok h
  rw [hcall]
  obtain ⟨d, hd, hlength, hget⟩ :=
    direction_linked (s := { s with linked := groups }) R hlinked
  have hsource : ∀ k, d[k]? = (drawn R s)[source groups k]? := hget
  refine ⟨⟨d, hd, hlength, hsource, fun k hk => ?_, fun hc g hg k hk => ?_, ?_⟩,
    InOrder.consistent⟩
  · rw [hsource, source_of_notMem hk]
  · rw [hsource, hsource, hc g hg k hk]
  · exact fun hdrawn => consistent_of_sharedBy (by rwa [length_drawn]) hdrawn hsource

def listed : Randomness Float (List Float) where
  normal g := (g.headD 0, g.tail)
  uniform g := (0, g)

def threeColumns : Problem Float where
  columns := 3
  kind := .linear
  direction := .maximise
  objective := List.replicate 3 0
  lower := List.replicate 3 Scalar.negInf
  upper := List.replicate 3 Scalar.posInf
  kinds := List.replicate 3 .continuous
  matrix := .zero 0 3
  rhs := []
  senses := []
  ranges := none

/-- A new sampler, whose draws will be 1, 2 and 3. -/
def IsNew (s : Sampler exactEmbedded (List Float)) : Prop :=
  (new exactEmbedded () [1, 2, 3] threeColumns (List.replicate 3 0)
    ⟨1, .squaredLength, none, false⟩ ()).result = .ok s

theorem exists_isNew : ∃ s, IsNew s := by
  have hempty : Problem.empty 0 3 = .ok threeColumns := rfl
  obtain ⟨u, hvalid⟩ := exists_of_isOk (x := threeColumns.validate) (by decide +kernel)
  have hlength : (List.replicate 3 (0 : Float)).length = threeColumns.columns :=
    List.length_replicate
  obtain ⟨s, hs⟩ := new_ok (B := exactEmbedded) () ([1, 2, 3] : List Float) ()
    (Problem.Built.empty hempty).matrixFits hvalid hlength
    (rfl : (SamplerConfig.mk 1 .squaredLength none false).verifyStart = false)
  exact ⟨s, hs⟩

theorem IsNew.eq {s : Sampler exactEmbedded (List Float)} (h : IsNew s) :
    s.dimension = 3 ∧ drawn listed s = [1 / 14, 2 / 14, 3 / 14] := by
  obtain ⟨b, -, rfl⟩ := new_eq h
  have hdrawn : normalize .squaredLength (nonzeroNormals listed 3 tries [1, 2, 3]).1 =
      [1 / 14, 2 / 14, 3 / 14] := by
    decide +kernel
  exact ⟨rfl, hdrawn⟩

/-- The second group goes on from a column of the first. -/
theorem threeColumns_follow_sources :
    let groups := [[0, 1], [1, 2]]
    ∃ s d, IsNew s ∧ (linkGroups groups s).result = .ok () ∧
      (direction listed (linkGroups groups s).state).result = .ok d ∧ d.length = 3 ∧
      d[0]? = (drawn listed s)[0]? ∧ SharedBy groups d := by
  intro groups
  obtain ⟨s, hs⟩ := exists_isNew
  have hlinked : ∀ i ∈ groups.flatten, i < s.dimension := by
    rw [hs.eq.1]
    decide
  have hok : (linkGroups groups s).result = .ok () := by rw [linkGroups_apply hlinked]
  obtain ⟨⟨d, hd, hlength, -, hfree, hshared, -⟩, horder⟩ :=
    linked_columns_follow_sources listed hok
  have hgroups : InOrder groups := by
    simp [InOrder, groups]
  exact ⟨s, d, hs, hok, hd, hlength.trans hs.eq.1, hfree 0 (by decide), hshared (horder hgroups)⟩

/-- The second group writes over the column that the first one takes its component from. -/
theorem overlapping_groups_fall_apart :
    let groups := [[1, 2], [0, 1]]
    ∃ s d, IsNew s ∧ (linkGroups groups s).result = .ok () ∧
      (direction listed (linkGroups groups s).state).result = .ok d ∧
      d[1]? = some (1 / 14) ∧ d[2]? = some (2 / 14) ∧ ¬ SharedBy groups d := by
  intro groups
  obtain ⟨s, hs⟩ := exists_isNew
  obtain ⟨hdimension, hdrawn⟩ := hs.eq
  have hlinked : ∀ i ∈ groups.flatten, i < s.dimension := by
    rw [hdimension]
    decide
  have hcall := linkGroups_apply hlinked
  obtain ⟨d, hd, -, hget⟩ := direction_linked (s := { s with linked := groups }) listed hlinked
  have hsource (k : Nat) : d[k]? = ([1 / 14, 2 / 14, 3 / 14] : List Float)[source groups k]? := by
    rw [← hdrawn]
    exact hget k
  refine ⟨s, d, hs, by rw [hcall], by rw [hcall]; exact hd, hsource 1, hsource 2, fun h => ?_⟩
  have hsame : d[2]? = d[1]? := h [1, 2] (by simp [groups]) 2 (by simp)
  rw [hsource, hsource] at hsame
  exact absurd hsame (by decide +kernel)

end LinProg.Sampler
