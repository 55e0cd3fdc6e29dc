import Mathlib.Data.Set.Basic
import SemanticCi.Library.Addresses
import SemanticCi.Model.QualifiedName

/-! The pruned search for the scope of a line finds every definition around it. -/

namespace SemanticCi.Ssp.QualifiedName

open SemanticCi.Python.Ast

/-! ## Nodes of a tree -/

theorem sizeOf_lt_of_wholeTree : ∀ (_ : Unit) (n : Node),
    ∀ step ∈ n.children.map fun c => ((), c), sizeOf step.2 < sizeOf n := by
  intro _ n step hstep
  obtain ⟨c, hc, rfl⟩ := List.mem_map.mp hstep
  exact Node.sizeOf_lt_of_mem_children hc

/-- The visitor of the whole tree. -/
def wholeTree : Visitor Unit Node Node where
  here _ n := [n]
  next _ n := n.children.map fun c => ((), c)
  descends := sizeOf_lt_of_wholeTree

/-- A definition whose lines contain the line. -/
def encloses (line : ℕ) (n : Node) : Bool := (scopeName n).isSome && containsLine n line

/-- The definitions around the line in a tree, a node before the nodes below it. -/
def enclosing (line : ℕ) (n : Node) : List Node := (wholeTree.run () n).filter (encloses line)

theorem enclosing_eq (line : ℕ) (n : Node) :
    enclosing line n = (if encloses line n then [n] else []) ++
      n.children.flatMap (enclosing line) := by
  have hbelow : (wholeTree.next () n).flatMap (fun step => wholeTree.run step.1 step.2) =
      n.children.flatMap (wholeTree.run ()) := List.flatMap_map ..
  have hhere : wholeTree.here () n = [n] := rfl
  rw [enclosing, Visitor.run_eq, hbelow, hhere, List.filter_append, List.filter_flatMap]
  congr 1
  cases hencloses : encloses line n <;> simp [hencloses]

theorem scopeName_of_encloses {line : ℕ} {n : Node} (h : encloses line n = true) :
    ∃ name, scopeName n = some name ∧ containsLine n line = true := by
  obtain ⟨hscope, hcontains⟩ := (Bool.and_eq_true _ _).mp h
  obtain ⟨name, hname⟩ := Option.isSome_iff_exists.mp hscope
  exact ⟨name, hname, hcontains⟩

/-! ## Line ranges -/

/-- The lines that a node may have below lines that it stands in: its own if it has any. -/
def linesOf (outer : Set ℕ) (n : Node) : Set ℕ :=
  {line | if (pos? n).isSome then containsLine n line = true else line ∈ outer}

/-- The lines of every node contain those of its children; a node without a position has the
lines of the node above it. -/
inductive NestedIn : Set ℕ → Node → Prop where
  | node {outer : Set ℕ} {n : Node} (hlines : linesOf outer n ⊆ outer)
      (hbelow : ∀ c ∈ n.children, NestedIn (linesOf outer n) c) : NestedIn outer n

theorem pos_of_scopeName {n : Node} {name : String} (h : scopeName n = some name) :
    (pos? n).isSome = true := by
  cases n <;> simp [scopeName, pos?] at h ⊢

/-- No definition around a line lies below lines that do not contain it. -/
theorem enclosing_eq_nil {outer : Set ℕ} {line : ℕ} {n : Node} (h : NestedIn outer n)
    (hline : line ∉ linesOf outer n) : enclosing line n = [] := by
  cases h with
  | node hlines hbelow =>
      have hhere : encloses line n = false := by
        by_contra hencloses
        obtain ⟨name, hname, hcontains⟩ := scopeName_of_encloses (by simpa using hencloses)
        exact hline (by simp [linesOf, pos_of_scopeName hname, hcontains])
      have hchildren : ∀ c ∈ n.children, enclosing line c = [] := by
        intro c hc
        have := Node.sizeOf_lt_of_mem_children hc
        cases hbelow c hc with
        | node hlines' hbelow' =>
            exact enclosing_eq_nil (.node hlines' hbelow') fun hmem => hline (hlines' hmem)
      rw [enclosing_eq, hhere, List.flatMap_eq_nil_iff.mpr hchildren]
      rfl
termination_by sizeOf n

/-- A pruned node has no definition around the line. -/
theorem enclosing_of_pruned {outer : Set ℕ} {line : ℕ} {n : Node} (h : NestedIn outer n)
    (hpruned : mayContainLine n line = false) : enclosing line n = [] := by
  apply enclosing_eq_nil h
  unfold mayContainLine at hpruned
  split at hpruned
  · next hpos => simp [linesOf, hpos, hpruned]
  · cases hpruned

/-! ## Siblings -/

/-- The visitor of the definitions that no other definition encloses. -/
def outermost : Visitor Unit Node Node where
  here _ n := if (scopeName n).isSome then [n] else []
  next _ n := if (scopeName n).isSome then [] else n.children.map fun c => ((), c)
  descends := by
    intro _ n step hstep
    split at hstep
    · cases hstep
    · obtain ⟨c, hc, rfl⟩ := List.mem_map.mp hstep
      exact Node.sizeOf_lt_of_mem_children hc

/-- The definitions of one scope: those below a node with no definition in between. -/
def scopeMembers (n : Node) : List Node := n.children.flatMap (outermost.run ())

/-- Two definitions of one scope share no line, in every scope of the tree. -/
inductive SiblingsApart : Node → Prop where
  | node {n : Node}
      (hhere : (scopeMembers n).Pairwise fun a b =>
        ∀ line, ¬ (containsLine a line = true ∧ containsLine b line = true))
      (hbelow : ∀ c ∈ n.children, SiblingsApart c) : SiblingsApart n

/-- Around a line that has a definition around it, there is an outermost one. -/
theorem exists_outermost {outer : Set ℕ} {line : ℕ} {n : Node} (h : NestedIn outer n)
    (hne : enclosing line n ≠ []) : ∃ d ∈ outermost.run () n, containsLine d line = true := by
  rw [Visitor.run_eq]
  simp only [outermost]
  by_cases hscope : (scopeName n).isSome
  · refine ⟨n, by simp [hscope], ?_⟩
    by_contra hcontains
    refine hne (enclosing_eq_nil h ?_)
    obtain ⟨name, hname⟩ := Option.isSome_iff_exists.mp hscope
    simp [linesOf, pos_of_scopeName hname, hcontains]
  · have hhere : encloses line n = false := by simp [encloses, hscope]
    rw [enclosing_eq, hhere] at hne
    obtain ⟨c, hc, hbelow⟩ : ∃ c ∈ n.children, enclosing line c ≠ [] := by
      by_contra hnone
      push Not at hnone
      exact hne (by simpa using hnone)
    have := Node.sizeOf_lt_of_mem_children hc
    cases h with
    | node hlines hnested =>
        obtain ⟨d, hd, hcontains⟩ := exists_outermost (hnested c hc) hbelow
        refine ⟨d, ?_, hcontains⟩
        simp only [hscope, Bool.false_eq_true, if_false, List.nil_append, List.flatMap_map]
        exact List.mem_flatMap.mpr ⟨c, hc, hd⟩
termination_by sizeOf n

/-- At most one child has a definition around the line. -/
theorem pairwise_enclosing {outer : Set ℕ} {n : Node} (hnested : NestedIn outer n)
    (hapart : SiblingsApart n) (line : ℕ) :
    n.children.Pairwise fun a b => enclosing line a = [] ∨ enclosing line b = [] := by
  cases hnested with
  | node hlines hbelow =>
      cases hapart with
      | node hhere _ =>
          rw [scopeMembers, List.pairwise_flatMap] at hhere
          refine hhere.2.imp_of_mem ?_
          intro a b ha hb hdisjoint
          by_contra hboth
          push Not at hboth
          obtain ⟨d, hd, hdline⟩ := exists_outermost (hbelow a ha) hboth.1
          obtain ⟨e, he, heline⟩ := exists_outermost (hbelow b hb) hboth.2
          exact hdisjoint d hd e he line ⟨hdline, heline⟩

/-! ## The traversal -/

/-- The names of the definitions around the line. -/
def names (line : ℕ) (n : Node) : List String := (enclosing line n).filterMap scopeName

/-- What a traversal makes of the best stack: these names on its stack, if there are any. -/
def extend (best stack : List String) : List String → List String
  | [] => best
  | name :: rest => stack ++ name :: rest

theorem names_eq_of_enterScope {line : ℕ} {stack next : List String} {n : Node}
    (h : enterScope line stack n = some next) :
    ∃ name, next = stack ++ [name] ∧ names line n = name :: n.children.flatMap (names line) := by
  unfold enterScope at h
  split at h
  · next name hname =>
      split at h
      · next hcontains =>
          have hhere : encloses line n = true := by simp [encloses, hname, hcontains]
          obtain rfl := Option.some.inj h
          refine ⟨name, rfl, ?_⟩
          simp [names, enclosing_eq line n, hhere, hname, List.filterMap_flatMap]
          rfl
      · cases h
  · cases h

theorem names_eq_of_not_enterScope {line : ℕ} {stack : List String} {n : Node}
    (h : enterScope line stack n = none) : names line n = n.children.flatMap (names line) := by
  have hhere : encloses line n = false := by
    by_contra hencloses
    obtain ⟨name, hname, hcontains⟩ := scopeName_of_encloses (by simpa using hencloses)
    simp [enterScope, hname, hcontains] at h
  simp [names, enclosing_eq line n, hhere, List.filterMap_flatMap]
  rfl

theorem longer_of_length_le {best stack : List String} (h : best.length ≤ stack.length)
    (name : String) : longer best (stack ++ [name]) = stack ++ [name] := by
  rw [longer, if_pos]
  simp only [List.length_append, List.length_singleton]
  omega

section Traversal

variable {relevant : Node → Bool} {line : ℕ}

/-- Children with no names leave the best stack as it is. -/
theorem visitChildren_of_no_names {children : List Node}
    (h : ∀ c ∈ children, ∀ best stack, visit relevant line best stack c = best)
    (best stack : List String) : visitChildren relevant line best stack children = best := by
  induction children with
  | nil => rw [visitChildren]
  | cons c rest ih =>
      obtain ⟨hc, hrest⟩ := List.forall_mem_cons.mp h
      rw [visitChildren, hc, ite_self]
      exact ih hrest

theorem visit_of_no_names {n : Node} (h : names line n = []) (best stack : List String) :
    visit relevant line best stack n = best := by
  rw [visit]
  split
  · next next hnext =>
      obtain ⟨name, -, hnames⟩ := names_eq_of_enterScope hnext
      rw [hnames] at h
      cases h
  · next hnext =>
      rw [names_eq_of_not_enterScope hnext, List.flatMap_eq_nil_iff] at h
      apply visitChildren_of_no_names
      intro c hc best stack
      have := Node.sizeOf_lt_of_mem_children hc
      exact visit_of_no_names (h c hc) best stack
termination_by sizeOf n

/-- Of children of which at most one has names, the names are put on the stack. -/
theorem visitChildren_eq {children : List Node}
    (hpairwise : children.Pairwise fun a b => enclosing line a = [] ∨ enclosing line b = [])
    (hrelevant : ∀ c ∈ children, relevant c = false → enclosing line c = [])
    (hvisit : ∀ c ∈ children, ∀ best stack : List String, best.length ≤ stack.length →
      visit relevant line best stack c = extend best stack (names line c))
    {best stack : List String} (hlength : best.length ≤ stack.length) :
    visitChildren relevant line best stack children =
      extend best stack (children.flatMap (names line)) := by
  induction children with
  | nil =>
      rw [visitChildren]
      rfl
  | cons c rest ih =>
      obtain ⟨hc, hrest⟩ := List.pairwise_cons.mp hpairwise
      obtain ⟨hrelevantc, hrelevant⟩ := List.forall_mem_cons.mp hrelevant
      obtain ⟨hvisitc, hvisit⟩ := List.forall_mem_cons.mp hvisit
      rw [visitChildren, List.flatMap_cons]
      cases hnames : names line c with
      | nil =>
          rw [visit_of_no_names hnames, ite_self, List.nil_append]
          exact ih hrest hrelevant hvisit
      | cons name more =>
          -- The siblings have no names, so what this child gives is the result.
          have hsome : enclosing line c ≠ [] := by
            intro hnil
            simp [names, hnil] at hnames
          have hnone : ∀ d ∈ rest, names line d = [] := by
            intro d hd
            simp [names, (hc d hd).resolve_left hsome]
          have hentered : relevant c = true := by
            by_contra hpruned
            exact hsome (hrelevantc (by simpa using hpruned))
          rw [if_pos hentered, hvisitc best stack hlength, hnames,
            List.flatMap_eq_nil_iff.mpr hnone, List.append_nil]
          exact visitChildren_of_no_names
            (fun d hd best stack => visit_of_no_names (hnone d hd) best stack) _ _

/-- The traversal puts the names around the line on its stack, whatever it prunes. -/
theorem visit_eq
    (hrelevant : ∀ outer c, NestedIn outer c → relevant c = false → enclosing line c = [])
    {outer : Set ℕ} {n : Node} (hnested : NestedIn outer n) (hapart : SiblingsApart n)
    {best stack : List String} (hlength : best.length ≤ stack.length) :
    visit relevant line best stack n = extend best stack (names line n) := by
  have hpairwise := pairwise_enclosing hnested hapart line
  cases hnested with
  | node hlines hbelow =>
      cases hapart with
      | node hhere hchildren =>
          have hvisit : ∀ c ∈ n.children, ∀ best stack : List String,
              best.length ≤ stack.length →
                visit relevant line best stack c = extend best stack (names line c) := by
            intro c hc best stack hlength
            have := Node.sizeOf_lt_of_mem_children hc
            exact visit_eq hrelevant (hbelow c hc) (hchildren c hc) hlength
          have hpruned : ∀ c ∈ n.children, relevant c = false → enclosing line c = [] :=
            fun c hc => hrelevant _ c (hbelow c hc)
          rw [visit]
          split
          · next next hnext =>
              obtain ⟨name, rfl, hnames⟩ := names_eq_of_enterScope hnext
              rw [longer_of_length_le hlength, visitChildren_eq hpairwise hpruned hvisit le_rfl,
                hnames]
              cases n.children.flatMap (names line) <;> simp [extend]
          · next hnext =>
              rw [visitChildren_eq hpairwise hpruned hvisit hlength,
                names_eq_of_not_enterScope hnext]
termination_by sizeOf n

end Traversal

theorem extend_nil (found : List String) : extend [] [] found = found := by
  cases found <;> rfl

/-! ## The chain of definitions -/

/-- The definitions around a line with their addresses, from a node at this address. -/
def chainFrom (line : ℕ) (p : List ℕ) (n : Node) : List (List ℕ × Unit × Node) :=
  (wholeTree.addressed.run (p, ()) n).filter fun node => encloses line node.2.2

theorem chainFrom_eq (line : ℕ) (p : List ℕ) (n : Node) :
    chainFrom line p n = (if encloses line n then [(p, (), n)] else []) ++
      n.children.zipIdx.flatMap fun c => chainFrom line (p ++ [c.2]) c.1 := by
  have hnext : (wholeTree.next () n).zipIdx = n.children.zipIdx.map fun c => (((), c.1), c.2) := by
    simp [wholeTree, List.zipIdx_map]
  rw [chainFrom, Visitor.run_addressed, hnext, List.flatMap_map, List.filter_cons,
    List.filter_flatMap]
  split <;> rfl

theorem map_chainFrom (line : ℕ) (p : List ℕ) (n : Node) :
    (chainFrom line p n).map (·.2.2) = enclosing line n := by
  have hnodes : (wholeTree.addressed.run (p, ()) n).map (·.2.2) = wholeTree.run () n := by
    rw [wholeTree.run_eq_flatMap_addressed p]
    exact List.map_eq_flatMap
  rw [enclosing, ← hnodes, List.filter_map]
  rfl

theorem chainFrom_eq_nil_iff {line : ℕ} {p : List ℕ} {n : Node} :
    chainFrom line p n = [] ↔ enclosing line n = [] := by
  rw [← map_chainFrom line p, List.map_eq_nil_iff]

/-- Every definition of the chain lies below the ones in front of it. -/
theorem pairwise_chainFrom {outer : Set ℕ} {n : Node} (hnested : NestedIn outer n)
    (hapart : SiblingsApart n) (line : ℕ) (p : List ℕ) :
    (chainFrom line p n).Pairwise fun a b => a.1 <+: b.1 ∧ a.1 ≠ b.1 := by
  have hpairwise := pairwise_enclosing hnested hapart line
  cases hnested with
  | node hlines hbelow =>
      cases hapart with
      | node hhere hchildren =>
          have hempty : n.children.zipIdx.Pairwise fun a b =>
              chainFrom line (p ++ [a.2]) a.1 = [] ∨ chainFrom line (p ++ [b.2]) b.1 = [] := by
            rw [← List.zipIdx_map_fst 0 n.children, List.pairwise_map] at hpairwise
            refine hpairwise.imp fun {a b} hone => ?_
            simpa only [chainFrom_eq_nil_iff] using hone
          have hrest : (n.children.zipIdx.flatMap fun c =>
              chainFrom line (p ++ [c.2]) c.1).Pairwise fun a b => a.1 <+: b.1 ∧ a.1 ≠ b.1 := by
            rw [List.pairwise_flatMap]
            constructor
            · intro c hc
              have hmem := List.fst_mem_of_mem_zipIdx hc
              have := Node.sizeOf_lt_of_mem_children hmem
              exact pairwise_chainFrom (hbelow _ hmem) (hchildren _ hmem) line _
            · refine hempty.imp fun {a b} hone x hx y hy => ?_
              rcases hone with hnil | hnil
              · simp [hnil] at hx
              · simp [hnil] at hy
          rw [chainFrom_eq]
          split
          · refine List.pairwise_cons.mpr ⟨fun node hnode => ?_, hrest⟩
            obtain ⟨c, -, hnode⟩ := List.mem_flatMap.mp hnode
            obtain ⟨path, hpath, -⟩ :=
              wholeTree.mem_run_addressed.mp (List.mem_of_mem_filter hnode)
            rw [hpath, List.append_assoc]
            exact ⟨List.prefix_append .., by simp⟩
          · exact hrest
termination_by sizeOf n

/-- The node of a tree at an address of child indices. -/
def nodeAt (tree : Node) : List ℕ → Option Node
  | [] => some tree
  | i :: rest => tree.children[i]?.bind (nodeAt · rest)

theorem nodeAt_wholeTree (tree : Node) (path : List ℕ) :
    wholeTree.nodeAt ((), tree) path = (nodeAt tree path).map fun n => ((), n) := by
  induction path generalizing tree with
  | nil => rfl
  | cons i rest ih =>
      have hnext : (wholeTree.next () tree)[i]? = tree.children[i]?.map fun c => ((), c) := by
        simp [wholeTree]
      rw [Visitor.nodeAt, hnext, nodeAt]
      cases tree.children[i]? with
      | none => rfl
      | some c => exact ih c

/-- The result names the definitions around the line, each of them, from the outermost to the
innermost. -/
def NamesEnclosing (tree : Node) (line : ℕ) (result : List String) : Prop :=
  ∃ chain : List (List ℕ × Node),
    (∀ path n, (path, n) ∈ chain ↔
      nodeAt tree path = some n ∧ (scopeName n).isSome ∧ containsLine n line = true) ∧
    (chain.Pairwise fun outer inner => outer.1 <+: inner.1 ∧ outer.1 ≠ inner.1) ∧
    result.map some = chain.map fun node => scopeName node.2

theorem namesEnclosing_names {tree : Node} (hnested : NestedIn Set.univ tree)
    (hapart : SiblingsApart tree) (line : ℕ) : NamesEnclosing tree line (names line tree) := by
  refine ⟨(chainFrom line [] tree).map fun node => (node.1, node.2.2), ?_, ?_, ?_⟩
  · intro path n
    have hmem : (path, n) ∈ (chainFrom line [] tree).map (fun node => (node.1, node.2.2)) ↔
        (path, (), n) ∈ chainFrom line [] tree := by
      constructor
      · intro hmap
        obtain ⟨node, hnode, heq⟩ := List.mem_map.mp hmap
        obtain ⟨rfl, rfl⟩ := Prod.mk.inj heq
        exact hnode
      · intro hnode
        exact List.mem_map.mpr ⟨_, hnode, rfl⟩
    rw [hmem, chainFrom, List.mem_filter, Visitor.mem_run_addressed]
    simp [nodeAt_wholeTree, encloses]
  · rw [List.pairwise_map]
    exact pairwise_chainFrom hnested hapart line []
  · have hscopes : ∀ n ∈ enclosing line tree, (scopeName n).isSome := by
      intro n hn
      obtain ⟨name, hname, -⟩ := scopeName_of_encloses (List.mem_filter.mp hn).2
      simp [hname]
    have hnames : (names line tree).map some = (enclosing line tree).map scopeName := by
      rw [names, List.map_filterMap_some_eq_filter_map_isSome, List.filter_eq_self]
      intro name hname
      obtain ⟨n, hn, rfl⟩ := List.mem_map.mp hname
      exact hscopes n hn
    rw [hnames, ← map_chainFrom line [] tree, List.map_map, List.map_map]
    rfl

/-- On a tree with nested line ranges and disjoint siblings the pruned search names the whole
chain of definitions around a line, as the search of the whole tree does. -/
theorem scopeForLine_names_enclosing (tree : Node) (hnested : NestedIn Set.univ tree)
    (hapart : SiblingsApart tree) (line : ℕ) :
    NamesEnclosing tree line (scopeForLine tree line) ∧
      scopeForLine tree line = unprunedScopeForLine tree line := by
  have hpruned : scopeForLine tree line = names line tree := by
    rw [scopeForLine, visit_eq (fun _ _ => enclosing_of_pruned) hnested hapart le_rfl, extend_nil]
  have hall : ∀ outer c, NestedIn outer c → (fun _ : Node => true) c = false →
      enclosing line c = [] := by
    intro outer c _ hfalse
    cases hfalse
  have hunpruned : unprunedScopeForLine tree line = names line tree := by
    rw [unprunedScopeForLine, visit_eq hall hnested hapart le_rfl, extend_nil]
  rw [hpruned, hunpruned]
  exact ⟨namesEnclosing_names hnested hapart line, rfl⟩

/-- A method below the lines of its class. -/
def runMethod : Node :=
  .functionDef ⟨3, 4, 4⟩ false "run" (.other "arguments" [] none []) [] [] none []

/-- The decorator stands in the line above the class. -/
def decoratedClass : Node :=
  .classDef ⟨2, 0, 4⟩ "Handler" [] [] [runMethod] [.name ⟨1, 1, 1⟩ "register"] []

theorem containsLine_of_start {n : Node} {pos : Pos} {start : ℕ} (hstart : startLine n = some start)
    (hpos : pos? n = some pos) (line : ℕ) :
    containsLine n line = true ↔ start ≤ line ∧ line ≤ pos.endLineno := by
  simp [containsLine, hstart, hpos]

theorem nested_decoratedClass : NestedIn Set.univ (.module [decoratedClass]) := by
  have hclass (line : ℕ) : containsLine decoratedClass line = true ↔ 1 ≤ line ∧ line ≤ 4 :=
    @containsLine_of_start _ ⟨2, 0, 4⟩ 1 rfl rfl line
  have hmethod (line : ℕ) : containsLine runMethod line = true ↔ 3 ≤ line ∧ line ≤ 4 :=
    @containsLine_of_start _ ⟨3, 4, 4⟩ 3 rfl rfl line
  have hdecorator (line : ℕ) : containsLine (.name ⟨1, 1, 1⟩ "register") line = true ↔
      1 ≤ line ∧ line ≤ 1 := @containsLine_of_start _ ⟨1, 1, 1⟩ 1 rfl rfl line
  refine .node (Set.subset_univ _) fun c hc => ?_
  obtain rfl := List.mem_singleton.mp hc
  refine .node (fun line _ => Set.mem_univ line) fun c hc => ?_
  rcases List.mem_pair.mp hc with rfl | rfl
  · refine .node (fun line hline => ?_) fun arguments harguments => ?_
    · have hinside := (hmethod line).mp hline
      exact (hclass line).mpr (by omega)
    · obtain rfl := List.mem_singleton.mp harguments
      exact .node (fun _ hline => hline) nofun
  · refine .node (fun line hline => ?_) nofun
    have hinside := (hdecorator line).mp hline
    exact (hclass line).mpr (by omega)

theorem outermost_of_scope {n : Node} {name : String} (h : scopeName n = some name) :
    outermost.run () n = [n] := by
  rw [Visitor.run_eq]
  simp [outermost, h]

theorem siblingsApart_decoratedClass : SiblingsApart (.module [decoratedClass]) := by
  have hleaf (n : Node) (hchildren : n.children = []) : SiblingsApart n := by
    refine .node (by simp [scopeMembers, hchildren]) fun c hc => ?_
    rw [hchildren] at hc
    cases hc
  have hnone (n : Node) (hname : scopeName n = none) (hchildren : n.children = []) :
      outermost.run () n = [] := by
    rw [Visitor.run_eq]
    simp [outermost, hname, hchildren]
  refine .node ?_ fun c hc => ?_
  · have hmembers : scopeMembers (.module [decoratedClass]) = [decoratedClass] :=
      (List.flatMap_singleton ..).trans (outermost_of_scope rfl)
    rw [hmembers]
    exact List.pairwise_singleton _ _
  · obtain rfl := List.mem_singleton.mp hc
    refine .node ?_ fun c hc => ?_
    · have hmembers : scopeMembers decoratedClass = [runMethod] := by
        simp [scopeMembers, decoratedClass, Node.children, outermost_of_scope (n := runMethod) rfl,
          hnone (.name ⟨1, 1, 1⟩ "register") rfl rfl]
      rw [hmembers]
      exact List.pairwise_singleton _ _
    · rcases List.mem_pair.mp hc with rfl | rfl
      · refine .node ?_ fun arguments harguments => ?_
        · have hmembers : scopeMembers runMethod = [] :=
            (List.flatMap_singleton ..).trans (hnone _ rfl rfl)
          rw [hmembers]
          exact .nil
        · obtain rfl := List.mem_singleton.mp harguments
          exact hleaf _ rfl
      · exact hleaf _ rfl

theorem scopeForLine_names_enclosing_decoratedClass :
    NamesEnclosing (.module [decoratedClass]) 3 (scopeForLine (.module [decoratedClass]) 3) ∧
      scopeForLine (.module [decoratedClass]) 3 =
        unprunedScopeForLine (.module [decoratedClass]) 3 :=
  scopeForLine_names_enclosing (.module [decoratedClass]) nested_decoratedClass
    siblingsApart_decoratedClass 3

end SemanticCi.Ssp.QualifiedName
