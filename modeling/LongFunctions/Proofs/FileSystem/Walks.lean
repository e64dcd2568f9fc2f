/-
What a walk meets, and in which order.

A walk comes from a node to what is below it by entries of directories that it can open, passing
over those that are pruned. `Node.Visits` says that step by step, without an order. A walk meets a
finding exactly when it visits the node that makes it (`mem_findings_iff`).

In a well-formed tree the findings come in strictly increasing order of the names that lead to them,
where names are compared by their bytes and sequences of names name by name (`pairwise_findings`):
what is found below one entry comes before all that is found below the next, for their names differ
already there. So a walk is told by the set of what it meets, and trees that show the same have one
walk (`findings_eq_of_same`).
-/
import Mathlib.Data.List.Sort
import LongFunctions.FileSystem
import LongFunctions.Proofs.FileSystem.Trees

set_option autoImplicit false

namespace LongFunctions

/-! ## 1. What a walk visits -/

/-- The names that lead to what was met. -/
def Finding.names : Finding → List String
  | .file names => names
  | .link names => names
  | .closedDir names => names

/-- What a walk meets at a node, if the node is not a directory that it goes into. -/
def Node.met? (opens : List String → Bool) (names : List String) : Node → Option Finding
  | .file _ => some (.file names)
  | .link _ => some (.link names)
  | .dir _ => if opens names then none else some (.closedDir names)

/-- A walk that comes to the first node, behind the names before it, comes to the second node behind
the names after it. -/
inductive Node.Visits (opens : List String → Bool) :
    List String → Node → List String → Node → Prop
  /-- The walk is there. -/
  | here (names : List String) (node : Node) : Visits opens names node [] node
  /-- The walk goes into a directory, and on from an entry that it does not pass over. -/
  | into {names : List String} {entries : Entries} {name : String} {child : Node}
      {below : List String} {found : Node} (opened : opens names = true)
      (listed : (name, child) ∈ entries) (kept : isPruned name child = false)
      (later : Visits opens (names ++ [name]) child below found) :
      Visits opens names (.dir entries) (name :: below) found

namespace Node

theorem met?_names {opens : List String → Bool} {names : List String} {node : Node} {f : Finding}
    (h : node.met? opens names = some f) : f.names = names := by
  cases node with
  | file content => rw [← Option.some.inj h]; rfl
  | link target => rw [← Option.some.inj h]; rfl
  | dir entries =>
    rw [met?] at h
    split_ifs at h
    rw [← Option.some.inj h]
    rfl

/-! ## 2. What a walk meets -/

theorem entryFindings_eq_map (opens : List String → Bool) (names : List String)
    (entries : Entries) :
    entryFindings opens names entries = entries.map fun entry =>
      (entry.1, if isPruned entry.1 entry.2 then []
        else entry.2.findings opens (names ++ [entry.1])) := by
  induction entries with
  | nil => rw [entryFindings, List.map_nil]
  | cons entry entries ih =>
    obtain ⟨name, node⟩ := entry
    rw [entryFindings, List.map_cons, ih]

theorem map_fst_entryFindings (opens : List String → Bool) (names : List String)
    (entries : Entries) :
    (entryFindings opens names entries).map Prod.fst = entries.map Prod.fst := by
  rw [entryFindings_eq_map, List.map_map]
  rfl

/-- What is met at an entry is met by a walk of its node, and the entry is not pruned. -/
theorem exists_entry_of_mem_entryFindings {opens : List String → Bool} {names : List String}
    {entries : Entries} {item : String × List Finding}
    (hitem : item ∈ entryFindings opens names entries) :
    ∃ entry ∈ entries, entry.1 = item.1 ∧
      (isPruned entry.1 entry.2 = true ∧ item.2 = [] ∨
        isPruned entry.1 entry.2 = false ∧
          item.2 = entry.2.findings opens (names ++ [entry.1])) := by
  rw [entryFindings_eq_map, List.mem_map] at hitem
  obtain ⟨entry, hentry, rfl⟩ := hitem
  refine ⟨entry, hentry, rfl, ?_⟩
  cases hpruned : isPruned entry.1 entry.2 with
  | true => exact Or.inl ⟨rfl, rfl⟩
  | false => exact Or.inr ⟨rfl, rfl⟩

/-- In a directory that is opened, a walk meets what it meets at the entries that are not pruned. -/
theorem mem_findings_dir {opens : List String → Bool} {names : List String} {entries : Entries}
    {f : Finding} (hopen : opens names = true) :
    f ∈ (Node.dir entries).findings opens names ↔
      ∃ entry ∈ entries, isPruned entry.1 entry.2 = false ∧
        f ∈ entry.2.findings opens (names ++ [entry.1]) := by
  rw [findings, if_pos hopen, List.mem_flatMap]
  simp only [List.mem_mergeSort]
  constructor
  · rintro ⟨item, hitem, hf⟩
    obtain ⟨entry, hentry, -, ⟨-, hnil⟩ | ⟨hkept, hitem⟩⟩ :=
      exists_entry_of_mem_entryFindings hitem
    · -- a pruned entry adds nothing that could be met
      rw [hnil] at hf
      cases hf
    · rw [hitem] at hf
      exact ⟨entry, hentry, hkept, hf⟩
  · rintro ⟨entry, hentry, hkept, hf⟩
    rw [entryFindings_eq_map]
    refine ⟨_, List.mem_map.mpr ⟨entry, hentry, rfl⟩, ?_⟩
    rw [if_neg (Bool.eq_false_iff.mp hkept)]
    exact hf

/-- **A walk meets what it visits.** Forwards the induction is on the node, backwards on the
visit. -/
theorem mem_findings_iff (opens : List String → Bool) (names : List String) (node : Node)
    (f : Finding) :
    f ∈ node.findings opens names ↔
      ∃ below found, Visits opens names node below found ∧
        found.met? opens (names ++ below) = some f := by
  constructor
  · intro h
    induction node using Node.induction generalizing names with
    | file content =>
      rw [findings, List.mem_singleton] at h
      exact ⟨[], _, Visits.here names _, by rw [List.append_nil, h]; rfl⟩
    | link target =>
      rw [findings, List.mem_singleton] at h
      exact ⟨[], _, Visits.here names _, by rw [List.append_nil, h]; rfl⟩
    | dir entries ih =>
      -- a directory that is opened is met only through its entries, any other one itself
      by_cases hopen : opens names = true
      · obtain ⟨⟨name, child⟩, hentry, hkept, hf⟩ := (mem_findings_dir hopen).mp h
        obtain ⟨below, found, hvisits, hmet⟩ := ih (name, child) hentry _ hf
        refine ⟨name :: below, found, Visits.into hopen hentry hkept hvisits, ?_⟩
        rwa [List.append_cons]
      · rw [findings, if_neg hopen, List.mem_singleton] at h
        refine ⟨[], _, Visits.here names _, ?_⟩
        rw [List.append_nil, met?, if_neg hopen, h]
  · rintro ⟨below, found, hvisits, hmet⟩
    induction hvisits with
    | here names node =>
      rw [List.append_nil] at hmet
      cases node with
      | file content => rw [findings, List.mem_singleton, ← Option.some.inj hmet]
      | link target => rw [findings, List.mem_singleton, ← Option.some.inj hmet]
      | dir entries =>
        rw [met?] at hmet
        split_ifs at hmet with hopen
        rw [findings, if_neg hopen, List.mem_singleton, ← Option.some.inj hmet]
    | @into names entries name child below found hopen hentry hkept _ ih =>
      rw [List.append_cons] at hmet
      exact (mem_findings_dir hopen).mpr ⟨(name, child), hentry, hkept, ih hmet⟩

/-- What a walk meets from its start on, it visits behind the names of what it meets. -/
theorem exists_visits_of_mem_findings {opens : List String → Bool} {node : Node} {f : Finding}
    (h : f ∈ node.findings opens []) :
    ∃ found, Visits opens [] node f.names found ∧ found.met? opens f.names = some f := by
  obtain ⟨below, found, hvisits, hmet⟩ := (mem_findings_iff opens [] node f).mp h
  rw [List.nil_append] at hmet
  have hnames := met?_names hmet
  subst hnames
  exact ⟨found, hvisits, hmet⟩

/-- Walks that open the same of what they visit meet the same. -/
theorem findings_congr {opens opens' : List String → Bool} {names : List String} {node : Node}
    (h : ∀ below found, Visits opens names node below found →
      opens (names ++ below) = opens' (names ++ below)) :
    node.findings opens names = node.findings opens' names := by
  induction node using Node.induction generalizing names with
  | file content => rw [findings, findings]
  | link target => rw [findings, findings]
  | dir entries ih =>
    have hopen := h [] _ (Visits.here names _)
    rw [List.append_nil] at hopen
    rw [findings, findings, ← hopen]
    split_ifs with hopened
    · -- both walks go into the directory, so the hypothesis holds of each entry that is visited
      have hentries : entryFindings opens names entries = entryFindings opens' names entries := by
        rw [entryFindings_eq_map, entryFindings_eq_map]
        refine List.map_congr_left fun entry hentry => ?_
        cases hpruned : isPruned entry.1 entry.2 with
        | true => rfl
        | false =>
          have hbelow := ih entry hentry fun below found hvisits => by
            have hinto := h (entry.1 :: below) found (Visits.into hopened hentry hpruned hvisits)
            rwa [List.append_cons] at hinto
          rw [hbelow]
      rw [hentries]
    · rfl

/-- What is met at a node or below it stands behind the names of the node. -/
theorem exists_names_eq_append {opens : List String → Bool} {names : List String} {node : Node}
    {f : Finding} (h : f ∈ node.findings opens names) : ∃ below, f.names = names ++ below := by
  obtain ⟨below, found, -, hmet⟩ := (mem_findings_iff opens names node f).mp h
  exact ⟨below, met?_names hmet⟩

/-- What is met at an entry stands behind the name of the entry. -/
theorem exists_names_eq_of_mem_entryFindings {opens : List String → Bool} {names : List String}
    {entries : Entries} {item : String × List Finding}
    (hitem : item ∈ entryFindings opens names entries) {f : Finding} (hf : f ∈ item.2) :
    ∃ below, f.names = names ++ item.1 :: below := by
  obtain ⟨entry, -, hname, ⟨-, hnil⟩ | ⟨-, hfindings⟩⟩ := exists_entry_of_mem_entryFindings hitem
  · rw [hnil] at hf
    cases hf
  · rw [hfindings] at hf
    obtain ⟨below, hbelow⟩ := exists_names_eq_append hf
    rw [hbelow, hname, List.append_assoc]
    exact ⟨below, rfl⟩

end Node

/-! ## 3. The order of names -/

/-- The bytes of each of the names. -/
def nameBytes (names : List String) : List (List UInt8) :=
  names.map fun name => name.toUTF8.data.toList

/-- Names with the same bytes are the same. -/
theorem toUTF8_toList_injective :
    Function.Injective fun name : String => name.toUTF8.data.toList := by
  intro a b h
  have hbytes : a.toUTF8 = b.toUTF8 := ByteArray.ext (Array.toList_inj.mp h)
  exact String.toByteArray_inj.mp hbytes

theorem nameBytes_append (names rest : List String) :
    nameBytes (names ++ rest) = nameBytes names ++ nameBytes rest :=
  List.map_append

/-- Of two names in order that are not the same, the first comes before the second. -/
theorem lt_of_nameLE {a b : String} (h : nameLE a b = true) (hne : a ≠ b) :
    a.toUTF8.data.toList < b.toUTF8.data.toList := by
  have hle : a.toUTF8.data.toList ≤ b.toUTF8.data.toList := of_decide_eq_true h
  rcases List.le_iff_lt_or_eq.mp hle with hlt | heq
  · exact hlt
  · exact absurd (toUTF8_toList_injective heq) hne

/-- Sequences of names that part at two names are in the order of these names, whatever follows. -/
theorem nameBytes_lt_of_name_lt {a b : String} (names below below' : List String)
    (h : a.toUTF8.data.toList < b.toUTF8.data.toList) :
    nameBytes (names ++ a :: below) < nameBytes (names ++ b :: below') := by
  rw [nameBytes_append, nameBytes_append]
  apply List.append_left_lt
  exact List.cons_lt_cons_iff.mpr (Or.inl h)

/-- The entries of a directory in the order of a walk have their names in strict order. -/
theorem pairwise_mergeSort_names {β : Type} {items : List (String × β)}
    (h : (items.map Prod.fst).Nodup) :
    (items.mergeSort fun a b => nameLE a.1 b.1).Pairwise fun a b =>
      a.1.toUTF8.data.toList < b.1.toUTF8.data.toList := by
  have htrans : ∀ a b c : String × β, nameLE a.1 b.1 = true → nameLE b.1 c.1 = true →
      nameLE a.1 c.1 = true := fun a b c hab hbc =>
    decide_eq_true (List.le_trans (of_decide_eq_true hab) (of_decide_eq_true hbc))
  have htotal : ∀ a b : String × β, (nameLE a.1 b.1 || nameLE b.1 a.1) = true := by
    intro a b
    rw [Bool.or_eq_true, nameLE, nameLE, decide_eq_true_eq, decide_eq_true_eq]
    exact List.le_total _ _
  have hsorted := List.pairwise_mergeSort htrans htotal items
  -- sorting gives the weak order, and it is strict because sorting adds no name
  have hdistinct : (items.mergeSort fun a b => nameLE a.1 b.1).Pairwise fun a b => a.1 ≠ b.1 := by
    have hperm := (List.mergeSort_perm items fun a b => nameLE a.1 b.1).map Prod.fst
    exact List.pairwise_map.mp (hperm.nodup_iff.mpr h)
  exact (hsorted.and hdistinct).imp fun hab => lt_of_nameLE hab.1 hab.2

/-! ## 4. The order of a walk -/

namespace Node

/-- **A walk of a well-formed tree meets everything in strictly increasing order.** -/
theorem pairwise_findings {node : Node} (h : node.WellFormed) (opens : List String → Bool)
    (names : List String) :
    (node.findings opens names).Pairwise fun f g => nameBytes f.names < nameBytes g.names := by
  induction node using Node.induction generalizing names with
  | file content => rw [findings]; exact List.pairwise_singleton _ _
  | link target => rw [findings]; exact List.pairwise_singleton _ _
  | dir entries ih =>
    cases h with
    | dir hnames hdistinct hbelow =>
      by_cases hopen : opens names = true
      · rw [findings, if_pos hopen, List.pairwise_flatMap]
        constructor
        · -- below one entry the induction hypothesis gives the order
          intro item hitem
          rw [List.mem_mergeSort] at hitem
          obtain ⟨entry, hentry, -, ⟨-, hnil⟩ | ⟨-, hfindings⟩⟩ :=
            exists_entry_of_mem_entryFindings hitem
          · rw [hnil]
            exact List.Pairwise.nil
          · rw [hfindings]
            exact ih entry hentry (hbelow entry hentry) _
        · -- below two entries the names differ where the entries do
          rw [← map_fst_entryFindings opens names] at hdistinct
          refine (pairwise_mergeSort_names hdistinct).imp_of_mem ?_
          intro a b ha hb hlt f hf g hg
          rw [List.mem_mergeSort] at ha hb
          obtain ⟨below, hfnames⟩ := exists_names_eq_of_mem_entryFindings ha hf
          obtain ⟨below', hgnames⟩ := exists_names_eq_of_mem_entryFindings hb hg
          rw [hfnames, hgnames]
          exact nameBytes_lt_of_name_lt names below below' hlt
      · rw [findings, if_neg hopen]
        exact List.pairwise_singleton _ _

/-! ## 5. The walk of what a tree shows -/

theorem Same.face_eq {a b : Node} (h : a.Same b) : a.face = b.face := by
  have hnil := h []
  rw [find?_nil, find?_nil] at hnil
  exact Option.some.inj hnil

theorem isPruned_face (name : String) (node : Node) :
    isPruned name node.face = isPruned name node := by
  cases node <;> rfl

theorem met?_face (opens : List String → Bool) (names : List String) (node : Node) :
    node.face.met? opens names = node.met? opens names := by
  cases node <;> rfl

/-- An entry of one directory stands in every other that shows the same, and shows the same. -/
theorem Same.child {entries entries' : Entries} (h : (Node.dir entries).Same (.dir entries'))
    {name : String} {child : Node} (hchild : entries.lookup name = some child) :
    ∃ child', entries'.lookup name = some child' ∧ child.Same child' := by
  have hrest : ∀ rest, (child.find? rest).map face =
      ((entries'.lookup name).bind (·.find? rest)).map face := by
    intro rest
    have hname := h (name :: rest)
    rwa [find?_dir_cons, find?_dir_cons, hchild, Option.bind_some] at hname
  cases hchild' : entries'.lookup name with
  | none =>
    have hnil := hrest []
    rw [hchild', find?_nil] at hnil
    cases hnil
  | some child' =>
    refine ⟨child', rfl, ?_⟩
    intro rest
    rw [hrest, hchild', Option.bind_some]

/-- What a walk visits in one well-formed tree it visits in every other that shows the same. -/
theorem Visits.of_same {opens : List String → Bool} {names below : List String}
    {a b found : Node} (h : Visits opens names a below found) (ha : a.WellFormed)
    (hb : b.WellFormed) (hsame : a.Same b) :
    ∃ found', Visits opens names b below found' ∧ found.face = found'.face := by
  induction h generalizing b with
  | here names node => exact ⟨b, Visits.here names b, hsame.face_eq⟩
  | @into names entries name child below found hopen hentry hkept _ ih =>
    obtain ⟨entries', rfl⟩ := face_eq_dir_iff.mp hsame.face_eq.symm
    cases ha with
    | dir _ hdistinct hwell =>
      cases hb with
      | dir _ hdistinct' hwell' =>
        obtain ⟨child', hlookup', hchild⟩ :=
          hsame.child ((lookup_eq_some_iff hdistinct name child).mpr hentry)
        have hentry' := (lookup_eq_some_iff hdistinct' name child').mp hlookup'
        obtain ⟨found', hvisits, hface⟩ := ih (hwell _ hentry) (hwell' _ hentry') hchild
        -- whether an entry is pruned is shown, so the other walk does not pass over it either
        refine ⟨found', Visits.into hopen hentry' ?_ hvisits, hface⟩
        rw [← isPruned_face, ← hchild.face_eq, isPruned_face, hkept]

theorem mem_findings_of_same {a b : Node} (ha : a.WellFormed) (hb : b.WellFormed)
    (hsame : a.Same b) {opens : List String → Bool} {names : List String} {f : Finding}
    (hf : f ∈ a.findings opens names) : f ∈ b.findings opens names := by
  obtain ⟨below, found, hvisits, hmet⟩ := (mem_findings_iff opens names a f).mp hf
  obtain ⟨found', hvisits', hface⟩ := hvisits.of_same ha hb hsame
  refine (mem_findings_iff opens names b f).mpr ⟨below, found', hvisits', ?_⟩
  rw [← met?_face, ← hface, met?_face, hmet]

/-- Findings in strict order are told by what they are. -/
theorem eq_of_pairwise_names {found found' : List Finding}
    (h : found.Pairwise fun f g => nameBytes f.names < nameBytes g.names)
    (h' : found'.Pairwise fun f g => nameBytes f.names < nameBytes g.names)
    (hmem : ∀ f, f ∈ found ↔ f ∈ found') : found = found' := by
  have hirrefl : Std.Irrefl fun f g : Finding => nameBytes f.names < nameBytes g.names :=
    ⟨fun _ => List.lt_irrefl _⟩
  -- no two findings can stand in either order
  have hantisymm : Std.Antisymm fun f g : Finding => nameBytes f.names < nameBytes g.names :=
    ⟨fun _ _ hfg hgf => absurd (List.lt_trans hfg hgf) (List.lt_irrefl _)⟩
  exact h.eq_of_mem_iff h' hmem

/-- **Well-formed trees that show the same have one walk.** Both walks are in the same strict order,
so they are equal as soon as they meet the same. -/
theorem findings_eq_of_same {a b : Node} (ha : a.WellFormed) (hb : b.WellFormed)
    (hsame : a.Same b) (opens : List String → Bool) (names : List String) :
    a.findings opens names = b.findings opens names := by
  apply eq_of_pairwise_names (pairwise_findings ha opens names) (pairwise_findings hb opens names)
  intro f
  exact ⟨mem_findings_of_same ha hb hsame, mem_findings_of_same hb ha hsame.symm⟩

end Node

end LongFunctions
