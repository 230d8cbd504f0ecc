import KeyspaceAmqp.Network
import KeyspaceAmqp.Receiver
import KeyspaceAmqp.Library.Replicas
import Mathlib.Data.Fintype.Prod

namespace KeyspaceAmqp
open Programs Paths Links Interleavings
variable {ι : Type} [DecidableEq ι]

omit [DecidableEq ι] in
theorem arrives_typedAt (a : ι) : TypedAt a (.arrives i j around) := trivial

omit [DecidableEq ι] in
theorem arrives_relayable {i j : ι} {around : Arrival} (ended : around.beyond.head? = some 0) :
    Relayable (.arrives i j around : Occurrence ι Turn Arrival) := ⟨trivial,trivial,trivial,ended⟩

theorem arrival_taken (w : World) (message : UInt8 × Bytes) : ∃ around w', around.beyond.head? = some 0 ∧
    clusterNode.next w (clusterNode.arrival message around) = some w' ∧ clusterNode.sends w' = [] := by
  obtain ⟨script,_,w',_,taken⟩ := callback_ends
    (show (Callback.clusterMessage clustered message.1 message.2 [0]).Due w from trivial) fun _ => calm_patient
  exact ⟨⟨clustered,[0],script⟩,w',rfl,taken,step_announces taken⟩

theorem relayable_replicates {h : ClusterStep ι} (went : clusterNode.step h.before h.label = some h.after)
    (relayable : Relayable h.label) : Replicates clusterNode World.settings relay h := by
  have somewhere : ∃ a, TypedAt a h.label := by
    cases h.label with
    | acts i turn =>
      refine ⟨i,?_⟩
      obtain ⟨callback,script⟩ := turn
      cases callback with
      | command ctx name args => rfl
      | _ => trivial
    | arrives i j around => exact ⟨i,trivial⟩
    | drops i j => exact ⟨i,trivial⟩
  obtain ⟨a,only⟩ := somewhere
  exact (relayable_led went only relayable).replicates

theorem run_replicates {start last : Cluster ι} (run : ClusterRun start hs last) (relayable : ∀ h ∈ hs, Relayable h.label) :
    ∀ h ∈ hs, Replicates clusterNode World.settings relay h :=
  fun h member => relayable_replicates (run.edge_taken member) (relayable h member)

-- With any number of administrators: a node's settings are what one sequence of commands
-- makes of those it started with, in which its own commands stand as they were typed and
-- those of each other node as they arrived from there, an ordered part of those typed there
-- and all but the last of them where none is lost.
theorem settings_interleaved {start last : Cluster ι} (run : ClusterRun start hs last)
    (cluster : ∀ h ∈ hs, TypedClustered h.label) (known : ∀ h ∈ hs, TypedKnown h.label)
    (portable : ∀ h ∈ hs, TypedPortably h.label) (terminated : ∀ h ∈ hs, Terminated h.label)
    (j : ι) (empty : start.link j j = []) :
    (last.node j).settings = outcome relay (start.node j).settings (clusterNode.heard j hs) ∧
    share j (clusterNode.heard j hs) = ((clusterNode.steps j hs).flatMap fun s => s.label.callback.announces) ∧
    ∀ i, i ≠ j →
      List.Sublist (share i (clusterNode.heard j hs))
        (start.link i j ++ (clusterNode.steps i hs).flatMap fun s => s.label.callback.announces) ∧
      ((∀ h ∈ hs, Spared i j h.label) →
        start.link i j ++ ((clusterNode.steps i hs).flatMap fun s => s.label.callback.announces) =
          share i (clusterNode.heard j hs) ++ last.link i j) := by
  have replicates := run_replicates run fun h member =>
    ⟨cluster h member,known h member,portable h member,terminated h member⟩
  refine ⟨view_path run replicates j,?_,?_⟩
  · rw [← said_announced run,share_said run replicates empty]
  · intro i other
    rw [← said_announced run,share_arrived hs other,link_path run other]
    refine ⟨(arrived_sublist i j hs).trans (List.sublist_append_left _ _),fun spared => ?_⟩
    rw [arrived_gone spared]

def typedAt (i : Bool) (command : Command) (args : List String) : Occurrence Bool Turn Arrival :=
  .acts i ⟨.command clustered command.name (args.map ascii),[]⟩
def reachesOther (i : Bool) : Occurrence Bool Turn Arrival := .arrives i (!i) ⟨clustered,[0],[]⟩

-- Masks added at both nodes at once come in one order at the one and in the other there.
def masksCrossed : List (Occurrence Bool Turn Arrival) :=
  [typedAt false .keymaskAdd ["^user:"],typedAt true .keymaskAdd ["^order:"],reachesOther false,reachesOther true]

theorem typedAt_relayable {i : Bool} {command : Command} {args : List String} (known : received command.name ≠ none)
    (portable : Portable (command.name :: args.map ascii)) : Relayable (typedAt i command args) := by
  have cluster : isRedisCluster clustered = true := by decide
  exact ⟨cluster,known,portable,trivial⟩

theorem masksCrossed_relayable : ∀ event ∈ masksCrossed, Relayable event := by
  intro event member
  simp only [masksCrossed,List.mem_cons,List.not_mem_nil,or_false] at member
  rcases member with rfl | rfl | rfl | rfl
  · exact typedAt_relayable (by decide) (by decide)
  · exact typedAt_relayable (by decide) (by decide)
  · exact arrives_relayable rfl
  · exact arrives_relayable rfl

theorem settings_interleaved_crossed : ∃ start hs last, ClusterRun (start : Cluster Bool) hs last ∧
    (∀ i j, last.link i j = []) ∧ (last.node true).settings ≠ (last.node false).settings ∧
    ∀ j, (last.node j).settings = outcome relay (start.node j).settings (clusterNode.heard j hs) := by
  obtain ⟨w,hs,last,_,run,labels,seen⟩ := cluster_played [] masksCrossed (fun _ last => decide
    ((∀ i j, last.link i j = []) ∧ (last.node true).settings ≠ (last.node false).settings)) (by decide +kernel)
  obtain ⟨clear,differ⟩ := of_decide_eq_true seen
  have fit : ∀ h ∈ hs, Relayable h.label := fun h member => masksCrossed_relayable _ (labels ▸ List.mem_map_of_mem member)
  exact ⟨_,hs,last,run,clear,differ,fun j => (settings_interleaved run (fun h member => (fit h member).1)
    (fun h member => (fit h member).2.1) (fun h member => (fit h member).2.2.1) (fun h member => (fit h member).2.2.2) j rfl).1⟩

def Arriving (event : Occurrence ι Turn Arrival) : Prop := ∃ i j around, event = .arrives i j around ∧ around.beyond.head? = some 0

omit [DecidableEq ι] in
theorem Arriving.relayable {event : Occurrence ι Turn Arrival} (arriving : Arriving event) : Relayable event := by
  obtain ⟨i,j,around,rfl,ended⟩ := arriving
  exact arrives_relayable ended

-- Administrators who do not get in each other's way: from wherever the cluster has come to,
-- the messages still under way can all arrive, and in whatever order they do, the nodes then
-- have the same settings.
theorem administrators_converge [Finite ι] {start last : Cluster ι} (run : ClusterRun start hs last)
    (cluster : ∀ h ∈ hs, TypedClustered h.label) (known : ∀ h ∈ hs, TypedKnown h.label)
    (portable : ∀ h ∈ hs, TypedPortably h.label) (terminated : ∀ h ∈ hs, Terminated h.label)
    (empty : ∀ i j, start.link i j = []) (same : ∀ j k, (start.node j).settings = (start.node k).settings)
    (spared : ∀ h ∈ hs, ∀ i j, i ≠ j → Spared i j h.label) (commuting : Commuting clusterNode relay hs) :
    (∃ more final, ClusterRun last more final ∧ (∀ h ∈ more, Arriving h.label) ∧ ∀ i j, final.link i j = []) ∧
    ∀ more final, ClusterRun last more final → (∀ h ∈ more, Arriving h.label) → (∀ i j, i ≠ j → final.link i j = []) →
      ∀ j k, (final.node j).settings = (final.node k).settings := by
  obtain ⟨nodes⟩ := nonempty_fintype ι
  refine ⟨?_,?_⟩
  · obtain ⟨more,final,onward,labels,_,emptied⟩ := links_settle arrival_taken last Finset.univ.toList
    refine ⟨more,final,onward,?_,fun i j => by simp [emptied]⟩
    intro h member
    obtain ⟨i,j,around,_,ended,label⟩ := labels h member
    exact ⟨i,j,around,label,ended⟩
  · intro more final onward arriving clear j k
    have whole := run.append onward
    have replicates := run_replicates whole fun h member => (List.mem_append.mp member).elim
      (fun early => ⟨cluster h early,known h early,portable h early,terminated h early⟩) fun late => (arriving h late).relayable
    have quiet : ∀ i, clusterNode.said i (hs ++ more) = clusterNode.said i hs := by
      intro i
      have nothing := said_arrivals onward (fun h late => replicates h (List.mem_append_right _ late))
        (fun h late => (arriving h late).imp fun _ => Exists.imp fun _ => Exists.imp fun _ => And.left) i
      rw [said_append,nothing,List.append_nil]
    have commuting : Commuting clusterNode relay (hs ++ more) := by
      intro i k
      rw [quiet,quiet]
      exact commuting i k
    have kept : ∀ i j, i ≠ j → ∀ h ∈ hs ++ more, h.label.ends i j = h.label.delivers i j := by
      intro i j other h member
      rcases List.mem_append.mp member with early | late
      · exact spared h early i j other
      · obtain ⟨k,l,around,label,_⟩ := arriving h late
        rw [label]
        exact arrives_kept i j k l around
    exact views_agree whole replicates empty kept clear commuting (fun j => same j k) j

theorem host_settles (name host : Bytes) (s : Settings) :
    Command.configSet.settles [name,host] s = {s with hostname := cstr host} := rfl

theorem size_settles (name size : Bytes) (s : Settings) : Command.fallbackStorageSizeSet.settles [name,size] s =
    {s with fallbackStorageMaxSize := UInt64.ofInt (strtol (cstr size))} := rfl

def partsSet : List (Occurrence Bool Turn Arrival) :=
  [typedAt false .configSet ["broker"],typedAt true .fallbackStorageSizeSet ["5"]]

theorem partsSet_relayable : ∀ event ∈ partsSet, Relayable event := by
  intro event member
  simp only [partsSet,List.mem_cons,List.not_mem_nil,or_false] at member
  rcases member with rfl | rfl
  · exact typedAt_relayable (by decide) (by decide)
  · exact typedAt_relayable (by decide) (by decide)

theorem administrators_converge_parts : ∃ start hs last more final, ClusterRun (start : Cluster Bool) hs last ∧
    (last.node true).settings ≠ (last.node false).settings ∧ ClusterRun last more final ∧
    (∀ i j, final.link i j = []) ∧ (final.node true).settings = (final.node false).settings := by
  let host : UInt8 × Bytes := (CLUSTER_MESSAGE_TYPE_CMD,(redisArgsToSerializedString [Command.configSet.name,ascii "broker"]).bytes)
  let size : UInt8 × Bytes := (CLUSTER_MESSAGE_TYPE_CMD,(redisArgsToSerializedString [Command.fallbackStorageSizeSet.name,ascii "5"]).bytes)
  obtain ⟨w,hs,last,_,run,labels,seen⟩ := cluster_played [] partsSet (fun hs last => decide
    (clusterNode.said false hs = [host] ∧ clusterNode.said true hs = [size] ∧
      (last.node true).settings ≠ (last.node false).settings)) (by decide +kernel)
  obtain ⟨one,two,differ⟩ := of_decide_eq_true seen
  have each {holds : Occurrence Bool Turn Arrival → Prop} (all : ∀ event ∈ partsSet, holds event) : ∀ h ∈ hs, holds h.label :=
    fun h member => all _ (labels ▸ List.mem_map_of_mem member)
  have spared : ∀ event ∈ partsSet, ∀ i j, i ≠ j → Spared i j event := by
    simp [partsSet,typedAt,Spared,Occurrence.ends,Occurrence.delivers]
  have first : (Callback.clusterMessage ⟨0,0⟩ host.1 host.2 [0]).carries =
      some (.configSet,[Command.configSet.name,ascii "broker"]) := by decide +kernel
  have second : (Callback.clusterMessage ⟨0,0⟩ size.1 size.2 [0]).carries =
      some (.fallbackStorageSizeSet,[Command.fallbackStorageSizeSet.name,ascii "5"]) := by decide +kernel
  have swap : ∀ s, relay (relay s host) size = relay (relay s size) host := by
    intro s
    simp only [relay,first,second,host_settles,size_settles]
  have commuting : Commuting clusterNode relay hs := by
    intro i k other x said y heard s
    cases i <;> cases k
    case false.false | true.true => exact absurd rfl other
    case false.true =>
      rw [one] at said
      rw [two] at heard
      cases List.mem_singleton.mp said
      cases List.mem_singleton.mp heard
      exact swap s
    case true.false =>
      rw [two] at said
      rw [one] at heard
      cases List.mem_singleton.mp said
      cases List.mem_singleton.mp heard
      exact (swap s).symm
  have fit := each partsSet_relayable
  obtain ⟨⟨more,final,onward,arriving,clear⟩,agree⟩ := administrators_converge run (fun h member => (fit h member).1)
    (fun h member => (fit h member).2.1) (fun h member => (fit h member).2.2.1) (fun h member => (fit h member).2.2.2)
    (fun _ _ => rfl) (fun _ _ => rfl) (fun h member => each spared h member) commuting
  exact ⟨_,hs,last,more,final,run,differ,onward,clear,agree more final onward arriving (fun i j _ => clear i j) true false⟩

end KeyspaceAmqp
