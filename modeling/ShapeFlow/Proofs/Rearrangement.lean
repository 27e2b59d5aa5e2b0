import ShapeFlow.Proofs.Loading

/-!
# Layout does not matter

The graph of statements depends on the declarations, whatever their order, and on the arrows in
their order. So declarations may stand anywhere, and a chain may be cut in two.

* `Sketch.lower_eq_of_arrows`: what the graph depends on.
* `Sketch.CutAt`, `Sketch.CutAt.links_eq`: a chain that is cut keeps its edges.
* `Sketch.lower_rearranged`: **statements in another order and cut chains have the same graph.**
-/

namespace ShapeFlow.Sketch

variable {statements others before after : List Statement} {g : Graph}

/-! ## What the graph depends on -/

/-- In any order the only declaration of a name is found. -/
theorem find?_of_perm {ds es : List Declaration} (h : ds.Perm es) (hnames : (names es).Nodup)
    {name : String} {d : Declaration} (hfind : ds.find? (·.name.name == name) = some d) :
    es.find? (·.name.name == name) = some d := by
  have hname := List.find?_some hfind
  obtain rfl := beq_iff_eq.1 hname
  exact find?_of_nodup hnames (h.mem_iff.1 (List.mem_of_find?_eq_some hfind))

theorem asks_of_perm {ds es : List Declaration} (h : ds.Perm es) (hnames : (names es).Nodup)
    {name : String} {node : Node} (hasks : Asks [] ds name node) : Asks [] es name node := by
  obtain ⟨hnew, d, hfind, hnode⟩ := hasks
  exact ⟨hnew, d, find?_of_perm h hnames hfind, hnode⟩

/-- **The graph depends on the declarations**, whatever their order, **and on the arrows**, as long
as no endpoint goes astray. -/
theorem lower_eq_of_arrows (h : lower statements = (g, []))
    (hdeclarations : (declarations statements).Perm (declarations others))
    (harrows : arrows others = arrows statements) (hstrays : strays others = []) :
    lower others = (g, []) := by
  obtain rfl : (lower statements).1 = g := congrArg Prod.fst h
  have hfindings : (lower statements).2 = [] := congrArg Prod.snd h
  rw [findings_lower, List.append_eq_nil_iff] at hfindings
  obtain ⟨hnames, hblocks⟩ := complaints_eq_nil_iff.1 hfindings.1
  have hothers : (names (declarations others)).Nodup := (hdeclarations.map _).nodup hnames
  have hcomplaints : complaints (declarations others) = [] :=
    complaints_eq_nil_iff.2 ⟨hothers, fun d hd => hblocks d (hdeclarations.mem_iff.2 hd)⟩
  have hnodes : (lower others).1.nodes = (lower statements).1.nodes := by
    refine Table.ext_get? fun name => Option.ext fun node => ?_
    refine node?_lower.trans (Iff.trans ?_ node?_lower.symm)
    exact ⟨asks_of_perm hdeclarations.symm hnames, asks_of_perm hdeclarations hothers⟩
  have hedges : (lower others).1.edges = (lower statements).1.edges := by
    rw [edges_lower, edges_lower, harrows]
  have hduplicates : (lower others).1.duplicates = (lower statements).1.duplicates :=
    (draws_lower hcomplaints).once.trans (draws_lower hfindings.1).once.symm
  have hgraph : (lower others).1 = (lower statements).1 := by
    cases hleft : (lower others).1
    cases hright : (lower statements).1
    rw [hleft, hright] at hnodes hedges hduplicates
    cases hnodes
    cases hedges
    cases hduplicates
    rfl
  refine Prod.ext hgraph ?_
  rw [findings_lower, hcomplaints, hstrays]
  rfl

/-! ## Another order -/

/-- **Statements in another order have the same graph** if their chains keep their order. -/
theorem lower_eq_of_perm (h : lower statements = (g, [])) (hperm : statements.Perm others)
    (hchains : chains others = chains statements) : lower others = (g, []) := by
  have hdeclarations := perm_declarations hperm
  have hfindings : (lower statements).2 = [] := congrArg Prod.snd h
  rw [findings_lower, List.append_eq_nil_iff, strays_eq_nil_iff] at hfindings
  refine lower_eq_of_arrows h hdeclarations (by rw [arrows, arrows, hchains]) ?_
  refine strays_eq_nil_iff.2 fun c hc e he => ?_
  rw [hchains] at hc
  exact (hdeclarations.map _).mem_iff.1 (hfindings.2 c hc e he)

/-! ## Cut chains -/

/-- **A chain is cut at an endpoint between its first and its last one.** The front part ends with
the endpoint, and the back part begins with its name, but without its handle. -/
structure CutAt (k : Nat) (c front back : Chain) : Prop where
  inside : 0 < k ∧ k + 1 < c.endpoints.length
  front : front.endpoints = c.endpoints.take (k + 1)
  back : ∃ p q, c.endpoints[k]? = some p ∧ q.node.name = p.node.name ∧ q.handle = none ∧
    back.endpoints = q :: c.endpoints.drop (k + 1)

variable {k : Nat} {c front back : Chain}

/-- What the parts of a cut chain are made of. -/
theorem CutAt.exists_endpoints (h : CutAt k c front back) :
    ∃ first between p q rest, c.endpoints = first :: between ++ p :: rest ∧
      front.endpoints = first :: between ++ [p] ∧ back.endpoints = q :: rest ∧
      q.node.name = p.node.name ∧ q.handle = none := by
  obtain ⟨⟨hpos, hlt⟩, hfront, p, q, hp, hname, hhandle, hback⟩ := h
  obtain ⟨hk, hp⟩ := List.getElem?_eq_some_iff.1 hp
  have hsplit : c.endpoints.take k ++ p :: c.endpoints.drop (k + 1) = c.endpoints := by
    rw [← hp, List.getElem_cons_drop, List.take_append_drop]
  have htake : c.endpoints.take (k + 1) = c.endpoints.take k ++ [p] := by
    rw [← hp, List.take_append_getElem]
  cases hinit : c.endpoints.take k with
  | nil =>
    have hlength := congrArg List.length hinit
    rw [List.length_take, List.length_nil] at hlength
    omega
  | cons first between =>
    rw [hinit] at hsplit htake
    exact ⟨first, between, p, q, _, hsplit.symm, hfront.trans htake, hback, hname, hhandle⟩

/-- Only the name of the endpoint at which a chain is cut stands in the edge out of it. -/
theorem links_cut {p q : Endpoint} (hname : q.node.name = p.node.name) (rest : List Endpoint) :
    ∀ (between : List Endpoint) (handle : String) (first : Endpoint),
      links handle (first :: between ++ p :: rest) =
        links handle (first :: between ++ [p]) ++ links Block.defaultOutput (q :: rest) := by
  have hrest : links Block.defaultOutput (p :: rest) = links Block.defaultOutput (q :: rest) := by
    cases rest with
    | nil => rfl
    | cons b rest => rw [links, links, hname]
  intro between
  induction between with
  | nil =>
    intro handle first
    change links handle (first :: p :: rest) = links handle [first, p] ++ _
    rw [links_eq, hrest, links_eq]
    rfl
  | cons b between ih =>
    intro handle first
    change links handle (first :: b :: (between ++ p :: rest)) =
      links handle (first :: b :: (between ++ [p])) ++ _
    rw [links_eq, links_eq, List.cons_append]
    exact congrArg _ (ih Block.defaultOutput b)

/-- **A chain that is cut keeps its edges.** -/
theorem CutAt.links_eq (h : CutAt k c front back) : c.links = front.links ++ back.links := by
  obtain ⟨first, between, p, q, rest, hc, hfront, hback, hname, hhandle⟩ := h.exists_endpoints
  unfold Chain.links
  rw [hc, hfront, hback]
  simp only [List.cons_append, List.head?_cons, Option.bind_some, hhandle, Option.map_none,
    Option.getD_none]
  exact links_cut hname rest between _ first

/-- The endpoints of the parts have the names of endpoints of the chain. -/
theorem CutAt.exists_name (h : CutAt k c front back) {e : Endpoint}
    (he : e ∈ front.endpoints ∨ e ∈ back.endpoints) :
    ∃ e' ∈ c.endpoints, e'.node.name = e.node.name := by
  obtain ⟨first, between, p, q, rest, hc, hfront, hback, hname, -⟩ := h.exists_endpoints
  rw [hfront, hback] at he
  rw [hc]
  rcases he with he | he
  · refine ⟨e, ?_, rfl⟩
    rcases List.mem_append.1 he with he | he
    · exact List.mem_append_left _ he
    · exact List.mem_append_right _ (List.mem_singleton.1 he ▸ List.mem_cons_self)
  · rcases List.mem_cons.1 he with rfl | he
    · exact ⟨p, List.mem_append_right _ List.mem_cons_self, hname.symm⟩
    · exact ⟨e, List.mem_append_right _ (List.mem_cons_of_mem _ he), rfl⟩

/-- **Statements with a chain cut in two have the same graph.** -/
theorem lower_eq_of_cutAt (h : lower (before ++ .chain c :: after) = (g, []))
    (hcut : CutAt k c front back) :
    lower (before ++ .chain front :: .chain back :: after) = (g, []) := by
  have hfindings : (lower (before ++ .chain c :: after)).2 = [] := congrArg Prod.snd h
  rw [findings_lower, List.append_eq_nil_iff, strays_eq_nil_iff] at hfindings
  have hdeclarations : declarations (before ++ .chain c :: after) =
      declarations (before ++ .chain front :: .chain back :: after) := by
    rw [declarations_append, declarations_append]
    rfl
  have hchains : chains (before ++ .chain c :: after) = chains before ++ c :: chains after :=
    chains_append
  have hparts : chains (before ++ .chain front :: .chain back :: after) =
      chains before ++ front :: back :: chains after := chains_append
  refine lower_eq_of_arrows h (.of_eq hdeclarations) ?_ ?_
  · have hedges : c.arrows = front.arrows ++ back.arrows := by
      simpa only [Chain.links_eq_arrows] using hcut.links_eq
    rw [arrows, arrows, hparts, hchains]
    simp only [List.flatMap_append, List.flatMap_cons, hedges, List.append_assoc]
  · -- an endpoint of a part is declared because the chain is
    refine strays_eq_nil_iff.2 fun part hpart e he => ?_
    rw [← hdeclarations]
    have hwhole : ∀ e' ∈ c.endpoints,
        e'.node.name ∈ names (declarations (before ++ .chain c :: after)) := fun e' he' =>
      hfindings.2 c (hchains ▸ List.mem_append_right _ List.mem_cons_self) e' he'
    have hother : part ∈ chains before ∨ part ∈ chains after →
        e.node.name ∈ names (declarations (before ++ .chain c :: after)) := by
      intro hpart
      refine hfindings.2 part (hchains ▸ ?_) e he
      rcases hpart with hpart | hpart
      · exact List.mem_append_left _ hpart
      · exact List.mem_append_right _ (List.mem_cons_of_mem _ hpart)
    rw [hparts, List.mem_append, List.mem_cons, List.mem_cons] at hpart
    rcases hpart with hpart | rfl | rfl | hpart
    · exact hother (.inl hpart)
    · obtain ⟨e', he', hname⟩ := hcut.exists_name (.inl he)
      exact hname ▸ hwhole e' he'
    · obtain ⟨e', he', hname⟩ := hcut.exists_name (.inr he)
      exact hname ▸ hwhole e' he'
    · exact hother (.inr hpart)

/-- **Layout does not matter.** Statements that have a graph have the same graph in any order in
which their chains keep theirs; and with a chain cut in two at any endpoint between its ends, the
handle of which stays with the front part. Ids of edges are the same too. -/
theorem lower_rearranged (h : lower statements = (g, [])) :
    (∀ others, statements.Perm others → chains others = chains statements →
      lower others = (g, [])) ∧
    ∀ before c after k front back, statements = before ++ .chain c :: after →
      CutAt k c front back → lower (before ++ .chain front :: .chain back :: after) = (g, []) := by
  refine ⟨fun others => lower_eq_of_perm h, ?_⟩
  rintro before c after k front back rfl hcut
  exact lower_eq_of_cutAt h hcut

/-- A declaration without arguments, at no place. -/
def declare (name block : String) : Statement :=
  .node ⟨⟨name, default⟩, ⟨block, default⟩, [], default⟩

/-- An endpoint at no place. -/
def endpoint (name : String) (handle : Option String) : Endpoint :=
  ⟨⟨name, default⟩, handle.map (fun h => ⟨h, default⟩), default⟩

/-- Into an attention through a named input, and on to an output. -/
def queryChain : Chain :=
  ⟨[endpoint "x" none, endpoint "m" (some "query"), endpoint "o" none], default⟩

/-- The chain into the attention. -/
def queryFront : Chain := ⟨[endpoint "x" none, endpoint "m" (some "query")], default⟩

/-- The chain out of the attention. -/
def queryBack : Chain := ⟨[endpoint "m" none, endpoint "o" none], default⟩

/-- An image that enters an attention. -/
def queryStatements : List Statement :=
  [declare "x" "Input", .chain queryChain, declare "m" "Attention", declare "o" "Output"]

theorem lower_rearranged_query :
    ∃ g, lower queryStatements = (g, []) ∧
      g.edges = [⟨"e0", "x", "out", "m", "query"⟩, ⟨"e1", "m", "out", "o", "in"⟩] ∧
      lower [.chain queryChain, declare "o" "Output", declare "m" "Attention",
        declare "x" "Input"] = (g, []) ∧
      lower [declare "x" "Input", .chain queryFront, .chain queryBack, declare "m" "Attention",
        declare "o" "Output"] = (g, []) := by
  have hlower : lower queryStatements = ((lower queryStatements).1, []) :=
    Prod.ext rfl (by decide +kernel)
  obtain ⟨hperm, hcut⟩ := lower_rearranged hlower
  refine ⟨_, hlower, by decide +kernel, hperm _ (by decide +kernel) rfl, ?_⟩
  refine hcut [declare "x" "Input"] queryChain _ 1 queryFront queryBack rfl ⟨by decide, rfl, ?_⟩
  exact ⟨endpoint "m" (some "query"), endpoint "m" none, rfl, rfl, rfl, rfl⟩

end ShapeFlow.Sketch
