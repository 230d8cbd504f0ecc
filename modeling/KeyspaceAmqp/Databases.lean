import KeyspaceAmqp.Changes

namespace KeyspaceAmqp
open Programs Paths Outbox

def Works (s : Step) : Prop := ∃ c ∈ s.after.trace, c.database ≠ none

instance (s : Step) : Decidable (Works s) := inferInstanceAs (Decidable (∃ c ∈ s.after.trace, c.database ≠ none))

def Call.deletes : Call → Bool
  | .deleteKey _ => true
  | _ => false

-- A step that drained a list to its end: the key is deleted nowhere else.
def Emptied (s : Step) : Prop := ∃ c ∈ s.after.trace, c.deletes = true

instance (s : Step) : Decidable (Emptied s) := inferInstanceAs (Decidable (∃ c ∈ s.after.trace, c.deletes = true))

theorem emptied_key (s : Step) (emptied : Emptied s) : ∃ key, .deleteKey key ∈ s.after.trace := by
  obtain ⟨c,member,deletes⟩ := emptied
  cases c with
  | deleteKey key => exact ⟨key,member⟩
  | _ => cases deletes

theorem mail_database {c : Call} (meaning : c.mail = some m) : (∃ body, m = .sent body) ∨ c.database ≠ none := by
  cases c with
  | amqp conn call =>
    cases call with
    | basicPublish _ _ _ body status =>
      simp only [Call.mail] at meaning
      split at meaning <;> cases meaning
      exact .inl ⟨body,rfl⟩
    | _ => cases meaning
  | publishEvent | openKey | closeKey | deleteKey | valueLength | listPop | listPush =>
    exact .inr (by simp [Call.database])
  | _ => cases meaning

theorem drained_sent_only (mails : List (Mail Int32 Bytes)) (only : ∀ m ∈ mails, ∃ body, m = .sent body) :
    drained mails = 0 := by
  induction mails with
  | nil => rfl
  | cons m rest ih =>
    obtain ⟨body,rfl⟩ := only m List.mem_cons_self
    simpa [drained] using ih fun m' member => only m' (List.mem_cons_of_mem _ member)

theorem storage_unworked (s : Step) (taken : step s.before s.label = some s.after)
    (clean : Clean s.before.storage) (idle : ¬ Works s) : s.after.storage = s.before.storage := by
  obtain ⟨kept,change,flag⟩ := step_change s taken clean rfl
  have only : ∀ m ∈ mail s.after.trace, ∃ body, m = .sent body := by
    intro m member
    obtain ⟨c,inside,meaning⟩ := List.mem_filterMap.mp member
    exact (mail_database meaning).resolve_right fun works => idle ⟨c,inside,works⟩
  rw [drained_sent_only _ only] at change
  have kept : kept = false := by
    cases kept with
    | false => rfl
    | true =>
      obtain ⟨q,body,member⟩ := (stores_mail s).mp (flag.mpr rfl)
      obtain ⟨_,impossible⟩ := only _ member
      cases impossible
  subst kept
  have storage {t : Store} (change : Change s.label.callback.ctx.db s.before.store t 0 false) :
      t.storage = s.before.storage := by
    cases change with
    | sends => simp
    | configures => rfl
  exact storage change

theorem change_elsewhere (change : Change db s s' count kept) (other : q ≠ db) : s'.storage q = s.storage q := by
  cases change <;> simp [other]

theorem shape_swept (shape : Shape db ms) {s : Store} (fit : s.AllFit ms) (swept : .drain db count false ∈ ms) :
    (s.moves ms).storage db = [] := by
  cases shape with
  | posted body total failed =>
    obtain ⟨rfl,rfl⟩ : count = total ∧ failed = false := by simpa [eq_comm] using swept
    exact (drain_complete fit.2.1).1
  | drained total failed =>
    obtain ⟨rfl,rfl⟩ : count = total ∧ failed = false := by simpa [eq_comm] using swept
    exact (drain_complete fit.1).1
  | _ => simp at swept

-- The list pushed to, the list counted and the list drained are one, and a drain that
-- reaches its end leaves nothing anywhere, as long as all work is done in the database
-- the module was loaded in and the other lists were empty then.
theorem one_list (loaded : Loaded ctx argv storage start) (clean : Clean storage)
    (others : ∀ q ≠ ctx.db, storage q = []) (run : Run start steps last)
    (one : ∀ s ∈ steps, Works s → s.label.callback.ctx.db = ctx.db) :
    (∀ c ∈ calls steps, ∀ q, c.database = some q → q = ctx.db) ∧
    (∀ s ∈ steps, ∀ q ≠ ctx.db, s.after.storage q = []) ∧
    ∀ s ∈ steps, Emptied s → ∀ q, s.after.storage q = [] := by
  obtain ⟨listed,_⟩ := loaded_store loaded
  have clean : Clean start.storage := listed ▸ clean
  have elsewhere : ∀ s ∈ steps, (∀ q ≠ ctx.db, s.before.storage q = []) ∧ ∀ q ≠ ctx.db, s.after.storage q = [] := by
    refine (run.throughout (fun w => ∀ q ≠ ctx.db, w.storage q = []) (· ∈ steps) (listed ▸ others) ?_
      fun _ member => member).2
    intro s taken member empty q other
    have cleans := (clean_run run clean s member).1
    by_cases works : Works s
    · obtain ⟨kept,change,_⟩ := step_change s taken cleans (one s member works)
      exact (change_elsewhere change other).trans (empty q other)
    · rw [storage_unworked s taken cleans works]
      exact empty q other
  refine ⟨?_,fun s member => (elsewhere s member).2,?_⟩
  · intro c member q inside
    obtain ⟨s,step,happened⟩ := List.mem_flatMap.mp member
    obtain ⟨_,_,_,_,_,within,_⟩ := step_effect (run.edge_taken step)
    rw [within c happened q inside]
    exact one s step ⟨c,happened,by simp [inside]⟩
  · intro s member emptied q
    obtain ⟨key,happened⟩ := emptied_key s emptied
    by_cases other : q = ctx.db
    · have here := one s member ⟨_,happened,by simp [Call.database]⟩
      obtain ⟨ms,shape,store,fit,_,_,swept⟩ := step_effect (run.edge_taken member)
      obtain ⟨count,inside⟩ := swept key happened
      have listed : s.after.storage = (s.before.store.moves ms).storage := congrArg Store.storage store
      rw [listed,other,← here]
      exact shape_swept shape fit inside
    · exact (elsewhere s member).2 q other

theorem one_list_drained : ∃ start steps last, Run start steps last ∧ (∃ s ∈ steps, Stores s) ∧
    (∃ s ∈ steps, Emptied s) ∧ ∀ s ∈ steps, Emptied s → ∀ q, s.after.storage q = [] := by
  obtain ⟨start,steps,last,loaded,run,seen⟩ := played_run (master 0) (allKeys "0") (fun _ => [])
    [expired 0 "a" (connects ++ refuses),expired 0 "b" (accepts ++ accepts)]
    (fun _ steps _ => decide ((∀ s ∈ steps, s.label.callback.ctx.db = 0) ∧ (∃ s ∈ steps, Stores s) ∧
      ∃ s ∈ steps, Emptied s)) (by decide +kernel)
  obtain ⟨one,stored,emptied⟩ := of_decide_eq_true seen
  refine ⟨start,steps,last,run,stored,emptied,(one_list loaded ?_ (fun _ _ => rfl) run fun s member _ => one s member).2.2⟩
  intro db bytes member
  cases member

theorem drain_leaves_other_database : ∃ start steps last, Loaded (master 0) (allKeys "0") (fun _ => []) start ∧
    Run start steps last ∧ (∃ s ∈ steps, Emptied s ∧ s.after.storage 1 = [ascii "1\nexpired\na"]) ∧
    delivered (calls steps) = [ascii "0\nexpired\nb"] := by
  obtain ⟨start,steps,last,loaded,run,seen⟩ := played_run (master 0) (allKeys "0") (fun _ => [])
    [expired 1 "a" (connects ++ refuses),expired 0 "b" accepts]
    (fun _ steps _ => decide ((∃ s ∈ steps, Emptied s ∧ s.after.storage 1 = [ascii "1\nexpired\na"]) ∧
      delivered (calls steps) = [ascii "0\nexpired\nb"])) (by decide +kernel)
  exact ⟨start,steps,last,loaded,run,of_decide_eq_true seen⟩

end KeyspaceAmqp
