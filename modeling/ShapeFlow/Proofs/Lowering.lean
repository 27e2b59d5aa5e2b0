import ShapeFlow.Sketch.Lowering
import ShapeFlow.Proofs.Permutation
import Std.Data.String.ToNat

/-!
# What declarations and chains become

* `Sketch.Declaration.Introduces`: the node that a declaration asks for.
* `Sketch.node?_lowerNodes`: **of the declarations of a name the first makes the node**, and no name
  is used twice.
* `Sketch.complaints`: what is wrong with declarations, each in view of those above it.
* `Sketch.Chain.links_eq_arrows`: one edge for every arrow, in order.
* `Sketch.map_id_number`, `Sketch.nodup_map_id_number`: the ids of edges are numbered and distinct.
-/

namespace ShapeFlow.Sketch

/-! ## Parameters -/

namespace Declaration

/-- The value of the last argument of a key. -/
def last? (d : Declaration) (key : String) : Option Param.Value :=
  (d.arguments.reverse.find? (·.key.name == key)).map (·.value.param)

/-- The activation function that the block name implies, under its key. -/
def implied? (d : Declaration) (key : String) : Option Param.Value :=
  if key = "activation" then (Block.impliedActivation? d.block.name).map Param.Value.text else none

/-- **The node that a declaration asks for**: its block, and under every key the last argument, or
else what the block name implies. -/
def Introduces (d : Declaration) (node : Node) : Prop :=
  Block.ofName? d.block.name = some node.block ∧
    ∀ key, node.params.get? key = (d.last? key).or (d.implied? key)

variable {d : Declaration} {node : Node}

/-- A parameter is the last argument of its name, or else what the name of the block implies. -/
theorem get?_params (d : Declaration) (key : String) :
    d.params.get? key = (d.last? key).or (d.implied? key) := by
  unfold params last? implied?
  rw [Table.get?_foldl_insert (fun arg : Argument => (arg.key.name, arg.value.param))]
  cases Block.impliedActivation? d.block.name with
  | none => simp
  | some function => simp [Table.get?_insert]

/-- A declaration is read as the one node that it introduces. -/
theorem node_eq_ok_iff : d.node = .ok node ↔ d.Introduces node := by
  unfold Declaration.node Introduces
  constructor
  · intro h
    split at h
    · next block hblock =>
      obtain rfl := Except.ok.inj h
      exact ⟨hblock, d.get?_params⟩
    · cases h
  · rintro ⟨hblock, hparams⟩
    obtain ⟨block, params⟩ := node
    have heq : d.params = params :=
      Table.ext_get? fun key => (d.get?_params key).trans (hparams key).symm
    rw [hblock, heq]

theorem node_eq_error (h : Block.ofName? d.block.name = none) :
    d.node = .error (unknownBlock d.block) := by
  rw [Declaration.node, h]

/-- **A known block has the node that is asked for.** -/
theorem exists_introduces (h : (Block.ofName? d.block.name).isSome) :
    ∃ node, d.Introduces node := by
  obtain ⟨block, hblock⟩ := Option.isSome_iff_exists.1 h
  exact ⟨⟨block, d.params⟩, hblock, d.get?_params⟩

end Declaration

/-! ## Declarations and chains among statements -/

section Statements

variable {statements others before after : List Statement}

theorem mem_declarations_iff {d : Declaration} :
    d ∈ declarations statements ↔ .node d ∈ statements := by
  induction statements with
  | nil => simp [declarations]
  | cons s statements ih => cases s <;> simp [declarations, ih]

theorem mem_chains_iff {c : Chain} : c ∈ chains statements ↔ .chain c ∈ statements := by
  induction statements with
  | nil => simp [chains]
  | cons s statements ih => cases s <;> simp [chains, ih]

theorem declarations_append :
    declarations (before ++ after) = declarations before ++ declarations after := by
  induction before with
  | nil => rfl
  | cons s before ih => cases s <;> simp [declarations, ih]

theorem chains_append : chains (before ++ after) = chains before ++ chains after := by
  induction before with
  | nil => rfl
  | cons s before ih => cases s <;> simp [chains, ih]

theorem declarations_map_node (ds : List Declaration) :
    declarations (ds.map Statement.node) = ds := by
  induction ds with
  | nil => rfl
  | cons d ds ih => rw [List.map_cons, declarations, ih]

theorem chains_map_node (ds : List Declaration) : chains (ds.map Statement.node) = [] := by
  induction ds with
  | nil => rfl
  | cons d ds ih => rw [List.map_cons, chains, ih]

/-- Statements in another order hold the same declarations in another order. -/
theorem perm_declarations (h : statements.Perm others) :
    (declarations statements).Perm (declarations others) := by
  induction h with
  | nil => exact .nil
  | cons s _ ih =>
    cases s with
    | node d => exact ih.cons d
    | chain c => exact ih
  | swap s t rest =>
    cases s <;> cases t
    · exact .swap _ _ _
    all_goals exact .refl _
  | trans _ _ ih₁ ih₂ => exact ih₁.trans ih₂

end Statements

/-! ## Declarations one by one -/

/-- The declared names in order. -/
def names (ds : List Declaration) : List String := ds.map (·.name.name)

section Nodes

variable {declared : List String} {g : Graph} {d : Declaration} {ds : List Declaration}
  {name : String} {node : Node}

/-- A name that was declared above is complained about, and its declaration is dropped. -/
theorem lowerNodes_redeclared (h : d.name.name ∈ declared) :
    lowerNodes declared g (d :: ds) =
      ((lowerNodes declared g ds).1, redeclared d.name :: (lowerNodes declared g ds).2) := by
  rw [lowerNodes, if_pos (by simpa using h)]

theorem lowerNodes_introduced (h : d.name.name ∉ declared) (hnode : d.Introduces node) :
    lowerNodes declared g (d :: ds) =
      lowerNodes (d.name.name :: declared) (g.insert d.name.name node) ds := by
  rw [lowerNodes, if_neg (by simpa using h), Declaration.node_eq_ok_iff.2 hnode]

/-- A name whose block is unknown counts as declared all the same. -/
theorem lowerNodes_unknown (h : d.name.name ∉ declared)
    (hblock : Block.ofName? d.block.name = none) :
    lowerNodes declared g (d :: ds) =
      ((lowerNodes (d.name.name :: declared) g ds).1,
        unknownBlock d.block :: (lowerNodes (d.name.name :: declared) g ds).2) := by
  rw [lowerNodes, if_neg (by simpa using h), Declaration.node_eq_error hblock]

/-- Names with a node are among those declared so far. -/
def Known (declared : List String) (g : Graph) : Prop :=
  ∀ name node, g.node? name = some node → name ∈ declared

theorem insert_of_known (hknown : Known declared g) (h : d.name.name ∉ declared) :
    g.insert d.name.name node = { g with nodes := g.nodes.insert d.name.name node } := by
  have hnew : g.nodes.contains d.name.name = false := by
    rw [Table.contains, Option.isSome_eq_false_iff, Option.isNone_iff_eq_none]
    by_contra hheld
    obtain ⟨held, hheld⟩ := Option.ne_none_iff_exists'.1 hheld
    exact h (hknown _ held hheld)
  rw [Graph.insert, hnew, if_neg Bool.false_ne_true]

theorem node?_insert_of_known (hknown : Known declared g) (h : d.name.name ∉ declared) :
    (g.insert d.name.name node).node? name =
      if name = d.name.name then some node else g.node? name := by
  rw [insert_of_known hknown h]
  exact Table.get?_insert ..

theorem known_cons (hknown : Known declared g) : Known (d.name.name :: declared) g :=
  fun name node hnode => List.mem_cons_of_mem _ (hknown name node hnode)

theorem known_insert (hknown : Known declared g) (h : d.name.name ∉ declared) :
    Known (d.name.name :: declared) (g.insert d.name.name node) := by
  intro other held hheld
  rw [node?_insert_of_known hknown h] at hheld
  split at hheld
  · next heq => exact heq ▸ List.mem_cons_self
  · exact List.mem_cons_of_mem _ (hknown other held hheld)

/-- No node is inserted under a name that is taken. -/
theorem duplicates_lowerNodes (hknown : Known declared g) :
    (lowerNodes declared g ds).1.duplicates = g.duplicates := by
  induction ds generalizing declared g with
  | nil => rfl
  | cons d ds ih =>
    by_cases hname : d.name.name ∈ declared
    · rw [lowerNodes_redeclared hname]
      exact ih hknown
    cases hblock : Block.ofName? d.block.name with
    | none =>
      rw [lowerNodes_unknown hname hblock]
      exact ih (known_cons hknown)
    | some block =>
      obtain ⟨node, hnode⟩ := d.exists_introduces (by rw [hblock]; rfl)
      rw [lowerNodes_introduced hname hnode, ih (known_insert hknown hname),
        insert_of_known hknown hname]

/-- The first declaration of a name asks for a node. -/
def Asks (declared : List String) (ds : List Declaration) (name : String) (node : Node) : Prop :=
  name ∉ declared ∧ ∃ d, ds.find? (·.name.name == name) = some d ∧ d.Introduces node

theorem asks_cons_of_ne (h : name ≠ d.name.name) :
    Asks (d.name.name :: declared) ds name node ↔ Asks declared (d :: ds) name node := by
  have hne : (d.name.name == name) = false := by simpa using Ne.symm h
  rw [Asks, Asks, List.mem_cons, List.find?_cons, hne]
  simp [h]

/-- **Of the declarations of a name the first makes the node.** -/
theorem node?_lowerNodes (hknown : Known declared g) :
    (lowerNodes declared g ds).1.node? name = some node ↔
      g.node? name = some node ∨ Asks declared ds name node := by
  induction ds generalizing declared g with
  | nil => simp [lowerNodes, Asks]
  | cons d ds ih =>
    by_cases hdeclared : d.name.name ∈ declared
    · rw [lowerNodes_redeclared hdeclared, ih hknown]
      -- a name that is not declared yet is not the one of this declaration
      refine or_congr_right (and_congr_right fun hname => ?_)
      have hne : (d.name.name == name) = false := by
        rw [beq_eq_false_iff_ne]
        rintro rfl
        exact hname hdeclared
      rw [List.find?_cons, hne]
    have hfree : g.node? d.name.name ≠ some node := fun hheld =>
      hdeclared (hknown _ node hheld)
    cases hblock : Block.ofName? d.block.name with
    | none =>
      rw [lowerNodes_unknown hdeclared hblock, ih (known_cons hknown)]
      refine or_congr_right ?_
      by_cases hname : name = d.name.name
      · subst hname
        simp [Asks, Declaration.Introduces, hblock]
      · exact asks_cons_of_ne hname
    | some block =>
      obtain ⟨made, hmade⟩ := d.exists_introduces (by rw [hblock]; rfl)
      rw [lowerNodes_introduced hdeclared hmade, ih (known_insert hknown hdeclared),
        node?_insert_of_known hknown hdeclared]
      by_cases hname : name = d.name.name
      · subst hname
        have hunique : d.Introduces node ↔ made = node := by
          rw [← Declaration.node_eq_ok_iff, Declaration.node_eq_ok_iff.2 hmade, Except.ok.injEq]
        simp [Asks, hdeclared, hfree, hunique]
      · rw [if_neg hname, asks_cons_of_ne hname]

end Nodes

/-! ## Complaints -/

section Complaints

variable {d : Declaration} {ds : List Declaration}

/-- What is wrong with a declaration, given those above it. -/
def Declaration.complaint? (above : List Declaration) (d : Declaration) : Option Finding :=
  if d.name.name ∈ names above then some (redeclared d.name)
  else if Block.ofName? d.block.name = none then some (unknownBlock d.block)
  else none

/-- **What is wrong with declarations**, in their order. -/
def complaints (ds : List Declaration) : List Finding :=
  ds.zipIdx.filterMap (fun (d, i) => d.complaint? (ds.take i))

/-- A declaration is in order if its name is new and its block is known. -/
theorem complaint?_eq_none_iff {above : List Declaration} :
    d.complaint? above = none ↔
      d.name.name ∉ names above ∧ (Block.ofName? d.block.name).isSome := by
  unfold Declaration.complaint?
  split
  · next h => simp [h]
  · next h =>
    split
    · next hblock => simp [hblock]
    · next hblock => simp [h, Option.isSome_iff_ne_none, hblock]

theorem complaints_concat : complaints (ds ++ [d]) = complaints ds ++ (d.complaint? ds).toList := by
  have hbefore : ∀ p ∈ ds.zipIdx, p.1.complaint? ((ds ++ [d]).take p.2) =
      p.1.complaint? (ds.take p.2) := by
    rintro ⟨other, i⟩ hp
    obtain ⟨-, hlt, -⟩ := List.mem_zipIdx hp
    rw [Nat.zero_add] at hlt
    rw [List.take_append_of_le_length (Nat.le_of_lt hlt)]
  unfold complaints
  rw [List.zipIdx_append, List.filterMap_append, List.filterMap_congr hbefore]
  congr 1
  cases h : d.complaint? ds <;> simp [h]

/-- **Nothing is wrong with declarations** if their names are distinct and their blocks known. -/
theorem complaints_eq_nil_iff :
    complaints ds = [] ↔
      (names ds).Nodup ∧ ∀ d ∈ ds, (Block.ofName? d.block.name).isSome := by
  induction ds using List.reverseRecOn with
  | nil => simp [complaints, names]
  | append_singleton ds d ih =>
    have hnodup : (names (ds ++ [d])).Nodup ↔ d.name.name ∉ names ds ∧ (names ds).Nodup := by
      rw [names, List.map_append, List.map_singleton, ← List.concat_eq_append]
      exact List.nodup_concat _ _
    rw [complaints_concat, List.append_eq_nil_iff, ih, Option.toList_eq_nil_iff,
      complaint?_eq_none_iff, hnodup, List.forall_mem_append, List.forall_mem_singleton]
    constructor
    · rintro ⟨⟨hnames, hblocks⟩, hname, hblock⟩
      exact ⟨⟨hname, hnames⟩, hblocks, hblock⟩
    · rintro ⟨⟨hname, hnames⟩, hblocks, hblock⟩
      exact ⟨⟨hnames, hblocks⟩, hname, hblock⟩

/-- Further declarations behind others, the names of which count as declared. -/
theorem findings_lowerNodes {declared : List String} {g : Graph} (above : List Declaration)
    (h : ∀ name, name ∈ declared ↔ name ∈ names above) :
    (lowerNodes declared g ds).2 =
      (ds.zipIdx above.length).filterMap (fun (d, i) => d.complaint? ((above ++ ds).take i)) := by
  induction ds generalizing declared g above with
  | nil => rfl
  | cons d ds ih =>
    have hfirst : (above ++ d :: ds).take above.length = above := List.take_left
    have hsplit : above ++ d :: ds = (above ++ [d]) ++ ds := by
      rw [List.append_assoc, List.singleton_append]
    have hlength : above.length + 1 = (above ++ [d]).length := by
      rw [List.length_append, List.length_singleton]
    rw [List.zipIdx_cons, List.filterMap_cons]
    dsimp only
    rw [hfirst, hsplit, hlength]
    unfold Declaration.complaint?
    by_cases hdeclared : d.name.name ∈ declared
    · -- the names above do not change
      have hsame : ∀ name, name ∈ declared ↔ name ∈ names (above ++ [d]) := by
        intro name
        rw [names, List.map_append, List.mem_append, List.map_singleton, List.mem_singleton,
          ← names, ← h]
        constructor
        · exact Or.inl
        · rintro (hname | rfl)
          · exact hname
          · exact hdeclared
      rw [lowerNodes_redeclared hdeclared, if_pos ((h _).1 hdeclared), ih _ hsame]
      rfl
    have hmore : ∀ name, name ∈ d.name.name :: declared ↔ name ∈ names (above ++ [d]) := by
      intro name
      rw [names, List.map_append, List.mem_append, List.map_singleton, List.mem_singleton,
        ← names, ← h, List.mem_cons, or_comm]
    rw [if_neg fun hname => hdeclared ((h _).2 hname)]
    cases hblock : Block.ofName? d.block.name with
    | none =>
      rw [lowerNodes_unknown hdeclared hblock, if_pos rfl, ih _ hmore]
      rfl
    | some block =>
      obtain ⟨node, hnode⟩ := d.exists_introduces (by rw [hblock]; rfl)
      rw [lowerNodes_introduced hdeclared hnode, if_neg (Option.some_ne_none block), ih _ hmore]
      rfl

end Complaints

/-! ## Arrows -/

section Arrows

variable {a b : Endpoint} {es : List Endpoint} {edges : List Edge} {e : Edge}

/-- The edge of an arrow, still without an id. Only in front of the first arrow of a chain the
handle is the one of an output. -/
def arrowEdge (first : Bool) (a b : Endpoint) : Edge where
  id := ""
  source := a.node.name
  sourceHandle :=
    if first then (a.handle.map Ident.name).getD Block.defaultOutput else Block.defaultOutput
  target := b.node.name
  targetHandle := (b.handle.map Ident.name).getD Block.defaultInput

/-- **The edges of a chain, one for every arrow.** -/
def Chain.arrows (c : Chain) : List Edge :=
  (c.endpoints.zip c.endpoints.tail).mapIdx (fun i p => arrowEdge (i = 0) p.1 p.2)

theorem links_eq (handle : String) (a b : Endpoint) (es : List Endpoint) :
    links handle (a :: b :: es) =
      { arrowEdge false a b with sourceHandle := handle } ::
        links Block.defaultOutput (b :: es) := rfl

/-- A chain links its endpoints pair by pair. -/
theorem links_defaultOutput :
    links Block.defaultOutput es = (es.zip es.tail).map (fun p => arrowEdge false p.1 p.2) := by
  induction es with
  | nil => rfl
  | cons a es ih =>
    cases es with
    | nil => rfl
    | cons b es =>
      rw [links_eq, ih]
      rfl

theorem Chain.links_eq_arrows (c : Chain) : c.links = c.arrows := by
  obtain ⟨endpoints, span⟩ := c
  rcases endpoints with - | ⟨a, - | ⟨b, es⟩⟩
  · rfl
  · rfl
  · -- behind the first arrow no place is zero
    have hlater : ∀ pairs : List (Endpoint × Endpoint),
        pairs.mapIdx (fun i p => arrowEdge (i + 1 = 0) p.1 p.2) =
          pairs.map (fun p => arrowEdge false p.1 p.2) := by
      intro pairs
      refine List.ext_getElem (by rw [List.length_mapIdx, List.length_map]) fun i _ _ => ?_
      rw [List.getElem_mapIdx, List.getElem_map, decide_eq_false (Nat.succ_ne_zero i)]
    have harrows : Chain.arrows ⟨a :: b :: es, span⟩ = arrowEdge true a b ::
        (((b :: es).zip es).mapIdx fun i p => arrowEdge (i + 1 = 0) p.1 p.2) := List.mapIdx_cons
    have hlinks : Chain.links ⟨a :: b :: es, span⟩ =
        arrowEdge true a b :: Sketch.links Block.defaultOutput (b :: es) := rfl
    rw [harrows, hlinks, hlater, links_defaultOutput, List.tail_cons]

theorem length_arrows (c : Chain) : c.arrows.length = c.endpoints.length - 1 := by
  rw [Chain.arrows, List.length_mapIdx, List.length_zip, List.length_tail]
  omega

/-- Both ends of the edge of an arrow are endpoints of its chain. -/
theorem exists_endpoints_of_mem_arrows {c : Chain} (h : e ∈ c.arrows) :
    ∃ a ∈ c.endpoints, ∃ b ∈ c.endpoints, e.source = a.node.name ∧ e.target = b.node.name := by
  obtain ⟨i, hi, rfl⟩ := List.mem_mapIdx.1 h
  have hmem := List.of_mem_zip (List.getElem_mem (l := c.endpoints.zip c.endpoints.tail) hi)
  exact ⟨_, hmem.1, _, List.mem_of_mem_tail hmem.2, rfl, rfl⟩

/-- The edges of arrows have no ids yet. -/
theorem unnamed_of_mem_arrows {c : Chain} (h : e ∈ c.arrows) : e.unnamed = e := by
  obtain ⟨i, hi, rfl⟩ := List.mem_mapIdx.1 h
  rfl

/-! ## Ids -/

theorem length_number : (number edges).length = edges.length := by
  rw [number, List.length_map, List.length_zipIdx]

/-- Numbering changes nothing of an edge but its id. -/
theorem unnamed_number : (number edges).map Edge.unnamed = edges.map Edge.unnamed := by
  have hplace : ∀ p : Edge × Nat, Edge.unnamed { p.1 with id := edgeId (UInt32.ofNat p.2) } =
      p.1.unnamed := fun _ => rfl
  rw [number, List.map_map, ← List.zipIdx_map_fst 0 edges, List.map_map, List.zipIdx_map_fst]
  exact List.map_congr_left fun p _ => hplace p

/-- **The ids of edges are numbered** as long as 32 bits count them. -/
theorem map_id_number (h : edges.length < 2 ^ 32) :
    (number edges).map (·.id) = (List.range edges.length).map (fun i => "e" ++ toString i) := by
  rw [number, List.map_map, List.range_eq_range', ← List.zipIdx_map_snd 0 edges, List.map_map]
  refine List.map_congr_left ?_
  rintro ⟨e, i⟩ hp
  obtain ⟨-, hlt, -⟩ := List.mem_zipIdx hp
  have hplace : (UInt32.ofNat i).toNat = i := by
    rw [UInt32.toNat_ofNat']
    exact Nat.mod_eq_of_lt (by omega)
  simp only [Function.comp_apply, edgeId, hplace]

/-- **No id is used twice** as long as 32 bits count the edges. -/
theorem nodup_map_id_number (h : edges.length < 2 ^ 32) :
    ((number edges).map (·.id)).Nodup := by
  rw [map_id_number h]
  refine List.nodup_range.map fun i j hij => ?_
  exact Nat.repr_injective ((String.append_right_inj "e").1 hij)

end Arrows

end ShapeFlow.Sketch
