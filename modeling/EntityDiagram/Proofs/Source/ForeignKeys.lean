import EntityDiagram.Proofs.Schema.Moves
import EntityDiagram.Proofs.Source.Resolution
import EntityDiagram.Scalar.Number

/-! The relationships of a source are exactly its foreign keys. Key and other attributes may be
declared in any order; each kind keeps its own order in the entity and in the relationships. -/
namespace EntityDiagram.Source

/-- From lists that belong to distinct owners, one owner's list is filtered out again. -/
theorem filter_flatMap_eq {β γ δ : Type} [DecidableEq δ] {key : β → δ} {owner : γ → δ}
    {part : β → List γ} (howner : ∀ b, ∀ c ∈ part b, owner c = key b) {l : List β}
    (hkeys : (l.map key).Nodup) {b : β} (hb : b ∈ l) :
    (l.flatMap part).filter (owner · = key b) = part b := by
  induction l with
  | nil => contradiction
  | cons first rest ih =>
    rw [List.map_cons, List.nodup_cons] at hkeys
    rw [List.flatMap_cons, List.filter_append]
    rcases List.mem_cons.mp hb with rfl | hb
    · have hfirst : (part b).filter (owner · = key b) = part b :=
        List.filter_eq_self.mpr fun c hc => by simpa using howner b c hc
      have hrest : (rest.flatMap part).filter (owner · = key b) = [] := by
        rw [List.filter_eq_nil_iff]
        intro c hc
        obtain ⟨other, hother, hc⟩ := List.mem_flatMap.mp hc
        have hne : key other ≠ key b := fun heq => hkeys.1 (heq ▸ List.mem_map_of_mem hother)
        simpa [howner other c hc] using hne
      rw [hfirst, hrest, List.append_nil]
    · have hne : key first ≠ key b := fun heq => hkeys.1 (heq ▸ List.mem_map_of_mem hb)
      have hfirst : (part first).filter (owner · = key b) = [] := by
        rw [List.filter_eq_nil_iff]
        intro c hc
        simpa [howner first c hc] using hne
      rw [hfirst, List.nil_append, ih hkeys.2 hb]

namespace EntityBlock

/-- The relationships of a block, without their lines. -/
def made (b : EntityBlock) : List Relationship :=
  b.declarations.filterMap fun d => relationship? b.name d.value

lemma entity_of_mem_made (b : EntityBlock) {r : Relationship} (hr : r ∈ b.made) :
    r.source.entity = b.name := by
  obtain ⟨d, -, hr⟩ := List.mem_filterMap.mp hr
  obtain ⟨target, -, rfl⟩ := Option.map_eq_some_iff.mp hr
  rfl

/-- Among distinct names the name of a declaration is a key name exactly when it is declared so. -/
lemma any_key_name_eq {b : EntityBlock} (names : (b.declarations.map (·.value.content.name)).Nodup)
    {d : Located Declaration} (hd : d ∈ b.declarations) :
    b.entity.key.any (·.name = d.value.content.name) = d.value.isKey := by
  rw [Bool.eq_iff_iff, List.any_eq_true]
  simp only [entity, attributesWhere, List.mem_map, List.mem_filter, decide_eq_true_eq]
  constructor
  · rintro ⟨a, ⟨other, ⟨hother, hkey⟩, rfl⟩, hname⟩
    rwa [← List.inj_on_of_nodup_map names hother hd hname]
  · intro hkey
    exact ⟨d.value.content, ⟨d, ⟨hd, hkey⟩, rfl⟩, rfl⟩

/-- The relationships of one kind of declarations are what their foreign keys ask for. -/
lemma map_ends_made (b : EntityBlock) (isKey : Bool) :
    ((b.declarations.filter (·.value.isKey = isKey)).filterMap fun d =>
      relationship? b.name d.value).map (·.ends) =
        b.entity.foreignKeys (b.attributesWhere isKey) := by
  rw [Entity.foreignKeys, attributesWhere, List.filterMap_map, List.map_filterMap]
  apply List.filterMap_congr
  intro d _
  simp only [relationship?, Option.map_map, Function.comp_apply]
  rfl

lemma filter_startsIn_made {b : EntityBlock}
    (names : (b.declarations.map (·.value.content.name)).Nodup) (isKey : Bool) :
    b.made.filter (fun r => r.startsIn b.entity.key = isKey) =
      (b.declarations.filter (·.value.isKey = isKey)).filterMap fun d =>
        relationship? b.name d.value := by
  rw [made, List.filter_filterMap, List.filterMap_filter]
  apply List.filterMap_congr
  intro d hd
  have hkey := any_key_name_eq names hd
  cases hr : relationship? b.name d.value with
  | none => simp
  | some r =>
    obtain ⟨target, -, rfl⟩ := Option.map_eq_some_iff.mp hr
    simp [Option.filter, Relationship.startsIn, hkey]

lemma map_ends_filter_made {b : EntityBlock}
    (names : (b.declarations.map (·.value.content.name)).Nodup) (isKey : Bool) :
    (b.made.filter fun r => r.startsIn b.entity.key = isKey).map (·.ends) =
      b.entity.foreignKeys (b.attributesWhere isKey) := by
  rw [filter_startsIn_made names, map_ends_made]

end EntityBlock

variable {blocks : List Block}

lemma relationshipsOf_entity (names : ((blocks.filterMap Block.entity?).map (·.name)).Nodup)
    {b : EntityBlock} (hb : b ∈ blocks.filterMap Block.entity?) :
    (Block.schema blocks).relationshipsOf b.entity = b.made := by
  rw [Schema.relationshipsOf, Block.schema_relationships]
  exact filter_flatMap_eq (fun b r hr => b.entity_of_mem_made hr) names hb

/-- The schema of blocks with distinct names mirrors their foreign keys. -/
theorem mirrorsForeignKeys_schema (names : (Block.schema blocks).HasDistinctNames) :
    (Block.schema blocks).MirrorsForeignKeys := by
  obtain ⟨hblocks, -, hdeclarations⟩ := (repeatError?_eq_none_iff [] _).mp
    ((repeatError?_eq_none_iff_hasDistinctNames blocks).mpr names)
  constructor
  · change _ = ((blocks.filterMap Block.entity?).map (·.entity)).flatMap _
    rw [List.flatMap_map, Block.schema_relationships]
    apply List.flatMap_congr
    intro b hb
    exact (relationshipsOf_entity hblocks hb).symm
  · intro e he
    obtain ⟨b, hb, rfl⟩ := List.mem_map.mp he
    rw [relationshipsOf_entity hblocks hb]
    have hends := EntityBlock.map_ends_filter_made (hdeclarations b hb) true
    simp only [Bool.decide_eq_true] at hends
    exact hends
  · intro e he
    obtain ⟨b, hb, rfl⟩ := List.mem_map.mp he
    rw [relationshipsOf_entity hblocks hb]
    have hends := EntityBlock.map_ends_filter_made (hdeclarations b hb) false
    simp only [Bool.decide_eq_false] at hends
    exact hends

/-- The relationships of a source are exactly its foreign keys, entity by entity, those of the
primary key and the others each in their order. Every one has the cardinality of the attribute that
makes it and is identifying exactly while that attribute is in the primary key, also after any run
of moves, by name or otherwise, and no move changes the relationships. -/
theorem parse_mirrors_foreignKeys {source : String} {document : Document}
    (h : parse source = .ok document) :
    document.schema.MirrorsForeignKeys ∧
      (document.schema.relationships.map (·.source)).Nodup ∧
      (∀ moved, Relation.ReflTransGen Schema.Moves document.schema moved →
        moved.relationships = document.schema.relationships ∧
        ∀ r ∈ document.schema.relationships, ∃ e a, document.schema.MadeBy r e a ∧
          ∃ f, e.Rearranges f ∧ moved.MadeBy r f a ∧
            moved.cardinality r = .ok ⟨a.optional, a.many⟩ ∧
            (moved.isIdentifying r = true ↔ a ∈ f.key)) ∧
      ∀ (d : Diagram Number) (moves : List (String × String × Bool)),
        d.schema = document.schema →
          Relation.ReflTransGen Schema.Moves document.schema (d.moveAttributes moves).schema := by
  obtain ⟨blocks, -, hnone, rfl⟩ := (parse_eq_ok_iff source document).mp h
  obtain ⟨names, ends, -, -⟩ := (Block.schema blocks).violation?_eq_none_iff.mp hnone
  have hmirror := mirrorsForeignKeys_schema names
  refine ⟨hmirror, hmirror.nodup_sources names, ?_, ?_⟩
  · intro moved hmoves
    have hrearranged := Schema.rearranges_of_moves hmoves
    refine ⟨hrearranged.relationships, ?_⟩
    intro r hr
    obtain ⟨e, a, hmade⟩ := hmirror.exists_madeBy hr
    obtain ⟨f, hef, hmoved⟩ := hrearranged.exists_madeBy hmade
    have hnames := hrearranged.hasDistinctNames names
    have htarget := hrearranged.hasAttribute (ends r hr).2
    exact ⟨e, a, hmade, f, hef, hmoved, hmoved.cardinality_eq hnames htarget,
      hmoved.isIdentifying_iff hnames⟩
  · intro d moves hd
    rw [← hd]
    exact d.moves_moveAttributes moves

/-- A foreign key outside the primary key, declared before one inside it. -/
theorem parse_mirrors_foreignKeys_of_mixed_keys :
    ∃ document,
      parse "Entity A \x7b\nb: n FK -> A.id \"up\"\n+id: n FK -> A.b \x7d" = .ok document ∧
      document.schema.MirrorsForeignKeys ∧ document.schema.relationships.length = 2 := by
  have h : parse "Entity A \x7b\nb: n FK -> A.id \"up\"\n+id: n FK -> A.b \x7d" = .ok
      ⟨⟨[⟨"A", [⟨"id", "n", false, false, some ⟨"A", "b"⟩⟩],
        [⟨"b", "n", false, false, some ⟨"A", "id"⟩⟩]⟩],
        [⟨⟨"A", "b"⟩, ⟨"A", "id"⟩, some "up"⟩, ⟨⟨"A", "id"⟩, ⟨"A", "b"⟩, none⟩], []⟩, []⟩ := by
    decide +kernel
  exact ⟨_, h, (parse_mirrors_foreignKeys h).1, rfl⟩

end EntityDiagram.Source
