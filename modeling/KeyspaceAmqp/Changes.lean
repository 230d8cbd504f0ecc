import KeyspaceAmqp.Turns

namespace KeyspaceAmqp
open Programs Paths Outbox

def Call.appends : Call → Bool
  | .listPush _ .tail _ => true
  | _ => false

def Stores (s : Step) : Prop := ∃ c ∈ s.after.trace, c.appends = true

instance (s : Step) : Decidable (Stores s) := inferInstanceAs (Decidable (∃ c ∈ s.after.trace, c.appends = true))

theorem appends_mail (c : Call) : c.appends = true ↔ ∃ q body, c.mail = some (.appended q body) := by
  cases c with
  | listPush key place pushed => cases place <;> simp [Call.appends,Call.mail]
  | listPop key popped => cases popped <;> simp [Call.appends,Call.mail]
  | amqp conn call => cases call <;> simp [Call.appends,Call.mail]
  | _ => simp [Call.appends,Call.mail]

theorem stores_mail (s : Step) : Stores s ↔ ∃ q body, .appended q body ∈ mail s.after.trace := by
  simp only [Stores,appends_mail,mail,List.mem_filterMap]
  constructor
  · rintro ⟨c,member,q,body,meaning⟩
    exact ⟨q,body,c,member,meaning⟩
  · rintro ⟨q,body,c,member,meaning⟩
    exact ⟨c,member,q,body,meaning⟩

theorem appended_moves {s : Store} (member : .appended q body ∈ s.mails ms) :
    ∃ m ∈ ms, ∃ kept, m = .keep q kept := by
  induction ms generalizing s with
  | nil => cases member
  | cons m rest ih =>
    rcases List.mem_append.mp member with here | later
    · refine ⟨m,List.mem_cons_self,?_⟩
      unfold Store.mail at here
      cases dealt : s.deal m with
      | none => simp [dealt] at here
      | some d =>
        rw [dealt] at here
        obtain ⟨evict,rfl⟩ := appended_deal here
        cases m with
        | keep db kept => cases dealt; exact ⟨kept,rfl⟩
        | _ => cases dealt
    · obtain ⟨m',inside,kept⟩ := ih later
      exact ⟨m',List.mem_cons_of_mem _ inside,kept⟩

-- The three things a step can do to the store: send the oldest `count` events (none, if
-- it is idle), keep an event, or be told a size and count the list anew. The number is
-- that of the stored events sent, the flag says whether an event was kept.
inductive Change (db : Int32) (s : Store) : Store → Nat → Bool → Prop where
  | sends (count : Nat) (some : count ≤ (s.storage db).length) : Change db s {s with
      storage := Function.update s.storage db ((s.storage db).drop count)
      len := s.len-UInt64.ofNat count} count false
  | keeps (body : CString) : Change db s {s with
      storage := Function.update s.storage db (s.evicted db ++ [body.bytes])} 0 true
  | configures (limit : UInt64) : Change db s {s with
      len := UInt64.ofNat (s.storage db).length
      limit := limit} 0 false

theorem shape_change (shape : Shape db ms) (s : Store) (fit : s.AllFit ms) :
    ∃ kept, Change db s (s.moves ms) (drained (s.mails ms)) kept ∧
      ((∃ q body, .appended q body ∈ s.mails ms) ↔ kept = true) := by
  have none (sent : ∀ m ∈ ms, ∀ q body, m ≠ .keep q body) :
      (∃ q body, .appended q body ∈ s.mails ms) ↔ false = true := by
    refine ⟨fun ⟨q,body,member⟩ => ?_,fun impossible => by cases impossible⟩
    obtain ⟨m,inside,kept,same⟩ := appended_moves member
    exact absurd same (sent m inside q kept)
  cases shape with
  | idle =>
    have nothing : Change db s (s.move (.drain db 0 false)) 0 false := .sends 0 (Nat.zero_le _)
    rw [move_drain_none] at nothing
    exact ⟨false,nothing,none (by simp)⟩
  | posted body count failed =>
    have some := drain_count fit.2.1
    have count : drained (s.mails [.post db body,.drain db count failed]) = count := by
      rw [Store.mails,Store.mails,Store.mails,List.append_nil]
      exact drained_drain s.storage db count failed some
    exact ⟨false,count.symm ▸ .sends _ some,none (by simp)⟩
  | drained count failed =>
    have some := drain_count fit.1
    have count : drained (s.mails [.drain db count failed]) = count := by
      rw [Store.mails,Store.mails,List.append_nil]
      exact drained_drain s.storage db count failed some
    exact ⟨false,count.symm ▸ .sends _ some,none (by simp)⟩
  | kept body =>
    have count : drained (s.mails [.keep db body]) = 0 := by
      simp only [Store.mails,mail_keep,List.append_nil]
      split <;> rfl
    have appended : ∃ q given, .appended q given ∈ s.mails [.keep db body] :=
      ⟨db,body.bytes,by simp [Store.mails,mail_keep]⟩
    refine ⟨true,?_,by simpa using appended⟩
    rw [count,moves_cons,move_keep]
    exact .keeps body
  | configured limit => exact ⟨false,.configures limit,none (by simp)⟩

theorem step_change (s : Step) (taken : step s.before s.label = some s.after)
    (clean : Clean s.before.storage) (one : s.label.callback.ctx.db = db) :
    ∃ kept, Change db s.before.store s.after.store (drained (mail s.after.trace)) kept ∧ (Stores s ↔ kept = true) := by
  obtain ⟨ms,shape,store,fit,mailed,_⟩ := step_effect taken
  rw [stores_mail,mailed clean,store]
  exact shape_change (one ▸ shape) _ fit

theorem run_change (run : Run start steps last) (clean : Clean start.storage)
    (one : ∀ s ∈ steps, s.label.callback.ctx.db = db) (member : s ∈ steps) :
    ∃ kept, Change db s.before.store s.after.store (drained (mail s.after.trace)) kept ∧ (Stores s ↔ kept = true) :=
  step_change s (run.edge_taken member) (clean_run run clean s member).1 (one s member)

end KeyspaceAmqp
