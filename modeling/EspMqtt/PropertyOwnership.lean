import EspMqtt.ConfigOwnership

/-! Who owns the memory of the version 5 properties. -/
namespace EspMqtt.Memory
open Ownership

variable {mem : Supply Site} {more : Multiset ℕ}

/-- The allocations for the items of a list of user properties are never refused. -/
structure ItemsGiven (mem : Supply Site) (l : List5) : Prop where
  item : ∀ n, mem (.propertyItem l) n = true
  key : ∀ n, mem (.propertyKey l) n = true
  value : ∀ n, mem (.propertyValue l) n = true

/-- The blocks of some items. -/
def itemBlocks (items : List PropertyItem) : Multiset ℕ := holds (items.flatMap PropertyItem.pointers)

theorem itemBlocks_cons (i : PropertyItem) (items : List PropertyItem) :
    itemBlocks (i :: items) = held (some i.key.block)+held (some i.value.block)+held (some i.block)+
      itemBlocks items := by
  simp only [itemBlocks, List.flatMap_cons, PropertyItem.pointers, holds_append, holds_cons, holds_nil,
    add_zero]
  abel

/-- Of an item that cannot be copied whole nothing is left. -/
theorem userPropertyCopy_spec (l : List5) {new : ℕ} (old : List (CString × CString)) (more : Multiset ℕ)
    (hnew : new ∈ more) :
    Spec mem more (userPropertyCopy l new old) fun r o =>
      o = itemBlocks r.2+more ∧ (ItemsGiven mem l → r.1 = true) := by
  induction old generalizing more with
  | nil => exact Spec.pure ⟨(zero_add more).symm, fun _ => rfl⟩
  | cons pair old ih =>
    obtain ⟨oldKey,oldValue⟩ := pair
    apply Spec.bind (Q := fun p o => o = held p+more ∧ (p = none → ¬ItemsGiven mem l))
    · apply Spec.alloc
      · exact fun b => ⟨by rw [held_some, Multiset.singleton_add], fun hb => by cases hb⟩
      · exact fun hrefused => ⟨by rw [held_none, zero_add], fun _ hgiven => refused_absurd hgiven.item hrefused⟩
    rintro item _ ⟨rfl,hitem⟩
    cases item with
    | none =>
      apply Spec.pure
      exact ⟨rfl, fun hgiven => absurd hgiven (hitem rfl)⟩
    | some item =>
      apply Spec.bind (Q := fun p o => o = held (pointer p)+(held (some item)+more) ∧
        (p = none → ¬ItemsGiven mem l))
      · apply copy_text_spec
        · exact fun c _ => ⟨rfl, fun hc => by cases hc⟩
        · exact fun hrefused =>
            ⟨by rw [pointer_none, held_none, zero_add], fun _ hgiven => refused_absurd hgiven.key hrefused⟩
      rintro key _ ⟨rfl,hkey⟩
      cases key with
      | none =>
        dsimp only
        rw [pointer_none, held_none, zero_add]
        apply Spec.bind (Spec.free (Q := fun _ o => o = more) rfl)
        rintro - _ rfl
        exact Spec.pure ⟨(zero_add _).symm, fun hgiven => absurd hgiven (hkey rfl)⟩
      | some key =>
        apply Spec.bind (Q := fun p o =>
          o = held (pointer p)+(held (some key.block)+(held (some item)+more)) ∧ (p = none → ¬ItemsGiven mem l))
        · apply copy_text_spec
          · exact fun c _ => ⟨rfl, fun hc => by cases hc⟩
          · exact fun hrefused => ⟨by rw [pointer_none, held_none, zero_add]; rfl,
              fun _ hgiven => refused_absurd hgiven.value hrefused⟩
        rintro value _ ⟨rfl,hvalue⟩
        cases value with
        | none =>
          dsimp only
          rw [pointer_none, held_none, zero_add, ← add_assoc,
            show held (some key.block)+held (some item) = holds [some key.block, some item] from by
              rw [holds_cons, holds_cons, holds_nil, add_zero]]
          apply Spec.bind (Spec.freeAll (Q := fun _ o => o = more) rfl)
          rintro - _ rfl
          exact Spec.pure ⟨(zero_add _).symm, fun hgiven => absurd hgiven (hvalue rfl)⟩
        | some value =>
          have hlive : new ∈ held (pointer (some value))+(held (some key.block)+(held (some item)+more)) := by
            simp only [Multiset.mem_add]
            exact Or.inr (Or.inr (Or.inr hnew))
          apply Spec.bind (Spec.touch (Q := fun _ o => o = _) hlive rfl)
          rintro - _ rfl
          apply Spec.bind (ih _ hlive)
          rintro r _ ⟨rfl,hall⟩
          refine Spec.pure ⟨?_, hall⟩
          rw [itemBlocks_cons]
          simp only [pointer_some]
          abel

theorem propertyPointers_some (l : PropertyList) :
    holds (propertyPointers (some l)) = itemBlocks l.items+held (some l.block) := by
  rw [propertyPointers, holds_append, holds_cons, holds_nil, add_zero, itemBlocks]

theorem deleteUserProperty_spec (l : Option PropertyList) {Q : Unit → Multiset ℕ → Prop} (h : Q () more) :
    Spec mem (holds (propertyPointers l)+more) (deleteUserProperty l) Q := by
  cases l with
  | none =>
    rw [propertyPointers, holds_nil, zero_add]
    exact Spec.pure h
  | some l =>
    refine Spec.bind (Spec.touch (Q := fun _ o => o = holds (propertyPointers (some l))+more) ?_ rfl) ?_
    · rw [propertyPointers_some, held_some]
      simp
    rintro - _ rfl
    exact Spec.freeAll h

theorem deleteTopicAlias_spec (l : Option AliasList) {Q : Unit → Multiset ℕ → Prop} (h : Q () more) :
    Spec mem (holds (aliasPointers l)+more) (deleteTopicAlias l) Q := by
  cases l with
  | none =>
    rw [aliasPointers, holds_nil, zero_add]
    exact Spec.pure h
  | some l =>
    refine Spec.bind (Spec.touch (Q := fun _ o => o = holds (aliasPointers (some l))+more) ?_ rfl) ?_
    · rw [aliasPointers, holds_append, holds_cons, held_some]
      simp
    rintro - _ rfl
    exact Spec.freeAll h

/-- The old list goes, and what there is of the new one is owned. -/
theorem replaceList_spec (f : List5) (old : Option PropertyList) (items : List (CString × CString))
    (more : Multiset ℕ) :
    Spec mem (holds (propertyPointers old)+more) (replaceList f old items) fun r o =>
      o = holds (propertyPointers r.2)+more ∧ (ItemsGiven mem f → r.2.isSome → r.1 = true) := by
  unfold replaceList
  apply Spec.bind (deleteUserProperty_spec old (Q := fun _ o => o = more) rfl)
  rintro - _ rfl
  rename_i more
  apply Spec.bind Spec.alloc_held
  rintro block _ rfl
  cases block with
  | none => exact Spec.pure ⟨rfl, fun _ hsome => by cases hsome⟩
  | some block =>
    apply Spec.bind (userPropertyCopy_spec f items (held (some block)+more) (by simp))
    rintro r _ ⟨rfl,hall⟩
    refine Spec.pure ⟨?_, fun hgiven _ => hall hgiven⟩
    rw [propertyPointers_some, add_assoc]

/-! The parts of `esp_mqtt5_client_set_connect_property`. -/

/-- A part that owns what it points to when it is done. -/
def Keeps5 (mem : Supply Site) (part : Part5) : Prop :=
  ∀ m, Spec mem (holds m.pointers) (part m) fun r o => o = holds r.2.pointers

/-- A string of the properties apart, they own what they own without it. -/
theorem Text5.holds_set (f : Text5) (m : Mqtt5Config) (p : Option Copy) :
    holds (f.set m p).pointers = held (pointer p)+holds (f.set m none).pointers := by
  cases f <;>
    simp only [set, Mqtt5Config.pointers, holds_append, holds_cons, holds_nil, pointer_none, held_none] <;>
    abel

theorem Text5.set_get (f : Text5) (m : Mqtt5Config) : f.set m (f.get m) = m := by cases f <;> rfl

theorem List5.holds_set (f : List5) (m : Mqtt5Config) (l : Option PropertyList) :
    holds (f.set m l).pointers = holds (propertyPointers l)+holds (f.set m none).pointers := by
  cases f <;>
    simp only [set, Mqtt5Config.pointers, holds_append, holds_cons, holds_nil, propertyPointers] <;>
    abel

theorem List5.set_get (f : List5) (m : Mqtt5Config) : f.set m (f.get m) = m := by cases f <;> rfl

theorem peerTopicAlias_apart (m : Mqtt5Config) (l : Option AliasList) :
    holds ({m with peerTopicAlias := l} : Mqtt5Config).pointers =
      holds (aliasPointers l)+holds ({m with peerTopicAlias := none} : Mqtt5Config).pointers := by
  simp only [Mqtt5Config.pointers, holds_append, holds_cons, holds_nil, aliasPointers]
  abel

theorem setTopicAliasMaximum_keeps (n : ℕ) : Keeps5 mem (setTopicAliasMaximum n) := by
  intro m
  unfold setTopicAliasMaximum
  split
  · split
    · rename_i hnone
      have hold : ({m with peerTopicAlias := none} : Mqtt5Config) = m := by
        rw [← Option.isNone_iff_eq_none.mp hnone]
      rw [← hold]
      apply Spec.bind (Q := fun p o => o =
        holds ({m with peerTopicAlias := p.map fun b => ⟨b, []⟩} : Mqtt5Config).pointers)
      · apply Spec.alloc
        · intro b
          have happart := peerTopicAlias_apart m (some ⟨b, []⟩)
          change _ = holds [some b]+_ at happart
          rw [Option.map_some, happart, holds_cons, holds_nil, held_some, add_zero,
            Multiset.singleton_add]
        · exact fun _ => rfl
      · rintro p _ rfl
        exact Spec.pure rfl
    · exact Spec.pure rfl
  · exact Spec.pure rfl

theorem setText_keeps (f : Text5) (text : Option (List UInt8)) : Keeps5 mem (setText f text) := by
  intro m
  cases text with
  | none => exact Spec.pure rfl
  | some text =>
    have happart := f.holds_set m (f.get m)
    rw [f.set_get] at happart
    rw [happart]
    apply Spec.bind (Spec.free (Q := fun _ o => o = _) rfl)
    rintro - _ rfl
    apply Spec.bind (Q := fun p o => o = holds (f.set m p).pointers)
    · exact copy_spec fun p => (f.holds_set m p).symm
    · rintro p _ rfl
      exact Spec.pure rfl

theorem setList_keeps (f : List5) (items : Option (List (CString × CString))) : Keeps5 mem (setList f items) := by
  intro m
  cases items with
  | none => exact Spec.pure rfl
  | some items =>
    have happart := f.holds_set m (f.get m)
    rw [f.set_get] at happart
    rw [happart]
    apply Spec.bind (replaceList_spec f _ _ _)
    rintro r _ ⟨rfl,-⟩
    exact Spec.pure (f.holds_set m r.2).symm

/-- The blocks of the properties. -/
def Mqtt5Config.blocks (m : Mqtt5Config) : Multiset ℕ := holds m.pointers

theorem connectParts_keep {inBufferLength : ℤ} {p : ConnectionProperty} {part : Part5}
    (hpart : part ∈ connectParts inBufferLength p) : Keeps5 mem part := by
  simp only [connectParts, List.mem_cons, List.not_mem_nil, or_false] at hpart
  rcases hpart with rfl | rfl | rfl | rfl | rfl | rfl | rfl | rfl | rfl
  · exact fun _ => Spec.pure rfl
  · exact setTopicAliasMaximum_keeps _
  · exact fun _ => Spec.pure rfl
  · exact setList_keeps _ _
  · exact fun _ => Spec.pure rfl
  · exact setText_keeps _ _
  · exact setText_keeps _ _
  · exact setText_keeps _ _
  · exact setList_keeps _ _

theorem connectParts_spec (inBufferLength : ℤ) (p : ConnectionProperty) (m : Mqtt5Config) :
    Spec mem (holds m.pointers) (Prog.inOrder (connectParts inBufferLength p) m) fun r o =>
      o = holds r.2.pointers := by
  have hparts : Spec mem m.blocks (Prog.inOrder (connectParts inBufferLength p) m)
      (Ended Mqtt5Config.blocks (fun _ => True) (fun _ => True) fun _ => True) := by
    refine Spec.inOrder (I := fun _ => True) ?_ trivial
    intro part hpart m _
    exact (connectParts_keep hpart m).mono fun _ _ h => ⟨h, trivial, fun _ _ => trivial, fun _ => trivial⟩
  exact hparts.mono fun _ _ h => h.own

end EspMqtt.Memory
