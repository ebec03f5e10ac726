import AliceBot.Library.CompleteLink
import AliceBot.Library.SortedByKey
import AliceBot.ProjectScope
import Mathlib.Algebra.Order.Ring.Rat
import Mathlib.Data.List.FinRange
import Mathlib.Data.List.MinMax
import Mathlib.Data.Prod.Lex
import Mathlib.Data.String.Basic

/-!
# Clusters of near-duplicate memories

`_cohesive_clusters` proposes rows for one merge when all of them carry the same project
scope and every pair of them reaches the similarity threshold. A chain of similar rows is
not enough.

The rows are taken in the order of their ids, so the order in which they were listed does
not matter (`cohesiveClusters_ids_of_perm`). `_cohesive_labels` builds its groups in the same
way, without scopes and sizes, and labels each row with the first index of its group.
-/

namespace AliceBot

open PyLib

/-! ### The rows and the test -/

/-- A row of the matrix: the text of its id, the stored memory, and its vector. -/
structure ConsolidationMember (V : Type) where
  id : String
  row : Dict Json
  vector : V

/-- `_project_scope_key`. -/
def ConsolidationMember.projectScopeKey {V : Type} (member : ConsolidationMember V) :
    List String :=
  (resolveProjectScope member.row).identity

/-- `SIMILARITY_BLOCK_ROWS`. -/
def similarityBlockRows : Nat := 128

/-- Whether the candidate clears a group, read block by block. -/
def clearsGroup {α : Type} (clears : α → Bool) : List α → Bool
  | [] => true
  | row :: group =>
    ((row :: group).take similarityBlockRows).all clears &&
      clearsGroup clears ((row :: group).drop similarityBlockRows)
termination_by group => group.length
decreasing_by
  simp only [List.length_drop, List.length_cons, similarityBlockRows]
  omega

/-- The blocks do not matter. -/
theorem clearsGroup_eq {α : Type} (clears : α → Bool) (group : List α) :
    clearsGroup clears group = group.all clears := by
  induction group using clearsGroup.induct with
  | case1 => rw [clearsGroup, List.all_nil]
  | case2 row group ih =>
    rw [clearsGroup, ih, ← List.all_append, List.take_append_drop]

variable {V : Type} (similarity : V → V → Rat) (threshold : Rat)

/-- The test of a candidate: the scope of the seed, and the threshold with every member. -/
def joinsCluster {α : Type} (member : α → ConsolidationMember V) (group : List α)
    (candidate : α) : Bool :=
  (group.head?.all fun seed =>
    decide ((member candidate).projectScopeKey = (member seed).projectScopeKey)) &&
  clearsGroup (fun index =>
    decide (threshold ≤ similarity (member index).vector (member candidate).vector)) group

/-! ### Clusters -/

variable (members : List (ConsolidationMember V))

/-- Every group that is built, the small ones too. -/
def cohesiveGroups : List (BuiltGroup (Fin members.length)) :=
  groupsOf (joinsCluster similarity threshold members.get)
    (sortByKeys (fun index => (members.get index).id) (List.finRange members.length))

/-- The largest clusters first, then by the first id. -/
def clusterKey {α : Type} (member : α → ConsolidationMember V) (indices : List α) :
    ℤ ×ₗ WithTop String :=
  toLex (-(indices.length : Int), (indices.map fun index => (member index).id).minimum)

/-- `_cohesive_clusters`. -/
def cohesiveClusters (minClusterSize : Int) : List (List (Fin members.length)) :=
  sortByKeys (clusterKey members.get)
    (((cohesiveGroups similarity threshold members).map BuiltGroup.members).filter fun group =>
      decide (minClusterSize ≤ group.length))

/-- The ids of the rows of each cluster. -/
def clusterIds (clusters : List (List (Fin members.length))) : List (List String) :=
  clusters.map (List.map fun index => (members.get index).id)

/-! ### Cliques -/

/-- Two rows that may be in one cluster. -/
def Linked (i j : Fin members.length) : Prop :=
  (members.get j).projectScopeKey = (members.get i).projectScopeKey ∧
    threshold ≤ similarity (members.get i).vector (members.get j).vector

variable {similarity threshold members}

theorem Linked.symm (hsymm : ∀ v w, similarity v w = similarity w v) {i j : Fin members.length}
    (h : Linked similarity threshold members i j) : Linked similarity threshold members j i :=
  ⟨h.1.symm, hsymm _ _ ▸ h.2⟩

/-- On a linked group the scope of the seed is that of every member. -/
theorem joinsCluster_linkTest :
    LinkTest (joinsCluster similarity threshold members.get)
      (Linked similarity threshold members) := by
  intro seed rest candidate hlinked
  rw [joinsCluster, clearsGroup_eq, Bool.and_eq_true, List.head?_cons, Option.all_some,
    decide_eq_true_eq, List.all_eq_true]
  constructor
  · rintro ⟨hscope, hclears⟩ index hindex
    refine ⟨?_, of_decide_eq_true (hclears index hindex)⟩
    rcases List.mem_cons.mp hindex with rfl | hrest
    · exact hscope
    · exact hscope.trans (List.rel_of_pairwise_cons hlinked hrest).1.symm
  · intro hall
    exact ⟨(hall seed List.mem_cons_self).1,
      fun index hindex => decide_eq_true (hall index hindex).2⟩

theorem cohesiveGroups_perm :
    ((cohesiveGroups similarity threshold members).flatMap BuiltGroup.members).Perm
      (List.finRange members.length) :=
  (groupsOf_perm _).trans (sortByKeys_perm _)

variable {minClusterSize : Int}

theorem cohesiveClusters_perm :
    (cohesiveClusters similarity threshold members minClusterSize).Perm
      (((cohesiveGroups similarity threshold members).map BuiltGroup.members).filter fun group =>
        decide (minClusterSize ≤ group.length)) :=
  sortByKeys_perm _

/-- Two clusters have no row in common. -/
theorem cohesiveClusters_disjoint :
    (cohesiveClusters similarity threshold members minClusterSize).Pairwise List.Disjoint := by
  have hrows : ((cohesiveGroups similarity threshold members).map
      BuiltGroup.members).flatten.Nodup := by
    rw [← List.flatMap_def]
    exact cohesiveGroups_perm.nodup_iff.mpr (List.nodup_finRange _)
  have hgroups := (List.nodup_flatten.mp hrows).2.sublist
    (List.filter_sublist (p := fun group => decide (minClusterSize ≤ (group.length : Int))))
  exact hgroups.perm cohesiveClusters_perm.symm fun h => h.symm

/-- A cluster is large enough, and its rows are linked to each other. -/
theorem linked_of_mem_cohesiveClusters (hsymm : ∀ v w, similarity v w = similarity w v)
    {cluster : List (Fin members.length)}
    (h : cluster ∈ cohesiveClusters similarity threshold members minClusterSize) :
    minClusterSize ≤ cluster.length ∧
      ∀ i ∈ cluster, ∀ j ∈ cluster, i ≠ j → Linked similarity threshold members i j := by
  obtain ⟨hgroup, hsize⟩ := List.mem_filter.mp (cohesiveClusters_perm.mem_iff.mp h)
  obtain ⟨group, hmem, rfl⟩ := List.mem_map.mp hgroup
  have hpairs := pairwise_of_mem_groupsOf joinsCluster_linkTest group hmem
  have hlinks : Std.Symm (Linked similarity threshold members) := ⟨fun _ _ h => h.symm hsymm⟩
  exact ⟨of_decide_eq_true hsize, fun i hi j hj hne => hpairs.forall hi hj hne⟩

/-- A row that was passed over does not belong in the finished group. -/
theorem not_linked_of_passedOver :
    ∀ group ∈ cohesiveGroups similarity threshold members, ∀ x ∈ group.passedOver,
      ¬ ∀ i ∈ group.members, Linked similarity threshold members i x := by
  intro group hgroup x hx hall
  obtain ⟨i, hi, hnot⟩ := exists_not_link joinsCluster_linkTest group hgroup x hx
  exact hnot (hall i hi)

/-! ### The order of the rows -/

/-- The test sees the rows, not their places. -/
theorem joinsCluster_map {group : List (Fin members.length)} {candidate : Fin members.length} :
    joinsCluster similarity threshold id (group.map members.get) (members.get candidate) =
      joinsCluster similarity threshold members.get group candidate := by
  rw [joinsCluster, joinsCluster, clearsGroup_eq, clearsGroup_eq, List.head?_map, Option.all_map,
    List.all_map]
  rfl

/-- The groups, as groups of rows. -/
theorem cohesiveGroups_map :
    (cohesiveGroups similarity threshold members).map (BuiltGroup.map members.get) =
      groupsOf (joinsCluster similarity threshold id)
        (sortByKeys ConsolidationMember.id members) := by
  rw [cohesiveGroups, groupsOf_map fun _ _ => joinsCluster_map, map_sortByKeys,
    List.map_get_finRange]

/-- The clusters, as lists of rows. -/
theorem cohesiveClusters_map :
    (cohesiveClusters similarity threshold members minClusterSize).map (List.map members.get) =
      sortByKeys (clusterKey id)
        (((groupsOf (joinsCluster similarity threshold id)
          (sortByKeys ConsolidationMember.id members)).map BuiltGroup.members).filter fun group =>
            decide (minClusterSize ≤ group.length)) := by
  have hkey : clusterKey members.get = fun indices =>
      clusterKey id (indices.map members.get) := by
    funext indices
    rw [clusterKey, clusterKey, List.length_map, List.map_map]
    rfl
  rw [cohesiveClusters, hkey, map_sortByKeys, ← cohesiveGroups_map, List.map_map]
  congr 1
  -- a group of rows has the size of its group of indices
  have hsize : (fun group : BuiltGroup (Fin members.length) =>
      decide (minClusterSize ≤ (group.map members.get).members.length)) =
      fun group => decide (minClusterSize ≤ group.members.length) := by
    funext group
    rw [BuiltGroup.map, List.length_map]
  rw [List.filter_map, List.filter_map, List.map_map]
  exact congrArg (fun size => List.map (List.map members.get ∘ BuiltGroup.members)
    (List.filter size (cohesiveGroups similarity threshold members))) hsize.symm

/-- The clusters do not depend on the order in which the rows are listed. -/
theorem cohesiveClusters_ids_of_perm {members' : List (ConsolidationMember V)}
    (hids : (members.map ConsolidationMember.id).Nodup) (hperm : members'.Perm members) :
    clusterIds members' (cohesiveClusters similarity threshold members' minClusterSize) =
      clusterIds members (cohesiveClusters similarity threshold members minClusterSize) := by
  have hread : ∀ (l : List (ConsolidationMember V)) (clusters : List (List (Fin l.length))),
      clusterIds l clusters =
        (clusters.map (List.map l.get)).map (List.map ConsolidationMember.id) := by
    intro l clusters
    rw [clusterIds, List.map_map]
    congr 1
    funext indices
    rw [Function.comp_apply, List.map_map]
    rfl
  have hids' : (members'.map ConsolidationMember.id).Nodup :=
    (hperm.map ConsolidationMember.id).nodup_iff.mpr hids
  rw [hread, hread, cohesiveClusters_map, cohesiveClusters_map, sortByKeys_eq_of_perm hperm hids']

/-- **Clusters are maximal cliques of one scope.** Every row ends in one group, the groups
that are large enough are the clusters, and what a group passed over does not fit it. -/
theorem cohesiveClusters_maximal_cliques (hsymm : ∀ v w, similarity v w = similarity w v)
    (hids : (members.map ConsolidationMember.id).Nodup) :
    ((cohesiveGroups similarity threshold members).flatMap BuiltGroup.members).Perm
        (List.finRange members.length) ∧
    (cohesiveClusters similarity threshold members minClusterSize).Perm
      (((cohesiveGroups similarity threshold members).map BuiltGroup.members).filter fun group =>
        decide (minClusterSize ≤ group.length)) ∧
    (cohesiveClusters similarity threshold members minClusterSize).Pairwise List.Disjoint ∧
    (∀ cluster ∈ cohesiveClusters similarity threshold members minClusterSize,
      minClusterSize ≤ cluster.length ∧
      ∀ i ∈ cluster, ∀ j ∈ cluster, i ≠ j → Linked similarity threshold members i j) ∧
    (∀ group ∈ cohesiveGroups similarity threshold members, ∀ x ∈ group.passedOver,
      ¬ ∀ i ∈ group.members, Linked similarity threshold members i x) ∧
    ∀ members' : List (ConsolidationMember V), members'.Perm members →
      clusterIds members' (cohesiveClusters similarity threshold members' minClusterSize) =
        clusterIds members (cohesiveClusters similarity threshold members minClusterSize) :=
  ⟨cohesiveGroups_perm, cohesiveClusters_perm, cohesiveClusters_disjoint,
    fun _ h => linked_of_mem_cohesiveClusters hsymm h, not_linked_of_passedOver,
    fun _ hperm => cohesiveClusters_ids_of_perm hids hperm⟩

/-- `a` and `b` are near each other, and `b` and `c`. -/
def bridgedMembers : List (ConsolidationMember Rat) :=
  [⟨"c", [], 4⟩, ⟨"a", [], 0⟩, ⟨"b", [], 2⟩]

/-- The bridge between `a` and `c` is in the cluster of `a`, wherever it is listed. -/
theorem bridgedMembers_clusters :
    clusterIds bridgedMembers.reverse
      (cohesiveClusters (fun v w => -|v - w|) (-2) bridgedMembers.reverse 2) = [["a", "b"]] := by
  rw [(cohesiveClusters_maximal_cliques (fun v w => congrArg Neg.neg (abs_sub_comm v w))
    (by decide)).2.2.2.2.2 bridgedMembers.reverse (List.reverse_perm _)]
  decide +kernel

end AliceBot
