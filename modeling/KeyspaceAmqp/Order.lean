import KeyspaceAmqp.Turns
import KeyspaceAmqp.Library.Ledger

namespace KeyspaceAmqp
open Programs Paths Outbox

def OneQueue (db : Int32) (ms : List Move) : Prop := ∀ m ∈ ms, ∀ s : Store, ∀ d ∈ s.deal m, d.queue = db

theorem Shape.one_queue (shape : Shape db ms) : OneQueue db ms := by
  cases shape <;> simp [OneQueue,Store.deal,Deal.queue]

structure Booked (L : Ledger Int32) (db : Int32) (storage : Int32 → List Bytes) (given gone : List Bytes) : Prop where
  tracks : L.Tracks db storage given gone
  ordered : L.Ordered db

theorem booked_deal {L : Ledger Int32} (d : Deal Int32 Bytes) (booked : Booked L d.queue storage given gone)
    (fits : d.Fits storage) : Booked (L.reads (d.mail storage)) d.queue (d.apply storage)
      (given ++ (handed (d.mail storage)).map Prod.snd) (gone ++ sent (d.mail storage)) := by
  refine ⟨tracks_deal d booked.tracks fits,?_⟩
  rw [reads_deal d booked.tracks fits]
  exact ordered_deal d booked.ordered

theorem booked_moves {L : Ledger Int32} (s : Store) (one : OneQueue db ms) (fit : s.AllFit ms)
    (booked : Booked L db s.storage given gone) : Booked (L.reads (s.mails ms)) db (s.moves ms).storage
      (given ++ (handed (s.mails ms)).map Prod.snd) (gone ++ sent (s.mails ms)) := by
  induction ms generalizing L s given gone with
  | nil => simpa [Store.mails,Store.moves,Ledger.reads,handed,sent] using booked
  | cons m rest ih =>
    have next : Booked (L.reads (s.mail m)) db (s.move m).storage
        (given ++ (handed (s.mail m)).map Prod.snd) (gone ++ sent (s.mail m)) := by
      have here := one m List.mem_cons_self s
      have fits := fit.1
      unfold Store.Fits at fits
      unfold Store.mail Store.move
      cases dealt : s.deal m with
      | none => simpa [Ledger.reads,handed,sent] using booked
      | some d =>
        simp only [dealt] at fits
        cases here d dealt
        exact booked_deal d booked fits
    have later := ih (s.move m) (fun m' member => one m' (List.mem_cons_of_mem _ member)) fit.2 next
    simpa only [Store.mails,moves_cons,handed_append,sent_append,List.map_append,reads_append,List.append_assoc] using later

-- The books of a run in one database, and the bodies by their tickets: first those the
-- list held at the start, then each that was handed over.
def books (db : Int32) (start : World) (steps : List Step) : Ledger Int32 :=
  (Ledger.opening db (start.storage db).length).reads (mail (calls steps))
def bodies (db : Int32) (start : World) (steps : List Step) : List Bytes :=
  start.storage db ++ (handedOver (calls steps)).map Prod.snd

theorem booked_step (s : Step) (taken : step s.before s.label = some s.after)
    (one : s.label.callback.ctx.db = db)
    (old : Clean s.before.storage ∧
      Booked (books db start done) db s.before.storage (bodies db start done) (delivered (calls done))) :
    Clean s.after.storage ∧ Booked (books db start (done ++ [s])) db s.after.storage
      (bodies db start (done ++ [s])) (delivered (calls (done ++ [s]))) := by
  obtain ⟨clean,booked⟩ := old
  obtain ⟨ms,shape,store,fit,mailed,_⟩ := step_effect taken
  have mailed := mailed clean
  have listed : s.after.storage = (s.before.store.moves ms).storage := congrArg Store.storage store
  refine ⟨listed ▸ clean_moves _ clean ms,?_⟩
  have next := booked_moves s.before.store (one ▸ shape.one_queue) fit booked
  rw [← mailed,handed_mail,sent_mail,← listed,← delivered_append,← calls_snoc] at next
  simpa only [books,bodies,calls_snoc,mail_append,reads_append,handedOver_append,List.map_append,List.append_assoc]
    using next

theorem booked_run (run : Run start steps last) (clean : Clean start.storage)
    (one : ∀ s ∈ steps, s.label.callback.ctx.db = db) :
    Booked (books db start steps) db last.storage (bodies db start steps) (delivered (calls steps)) := by
  refine (run.carry (fun done w => Clean w.storage ∧
    Booked (books db start done) db w.storage (bodies db start done) (delivered (calls done)))
    (fun s => s.label.callback.ctx.db = db) ?_ ?_ one).2
  · refine ⟨clean,?_,?_⟩
    · simpa [books,bodies,calls,mail,handedOver,delivered,Ledger.reads] using opening_tracks db start.storage
    · simpa [books,calls,mail,Ledger.reads] using opening_ordered db (start.storage db).length
  · exact fun done s _ taken single old => booked_step s taken single old

-- A delivery ahead of an earlier event's is always of an event sent straight away while
-- the earlier one waited in the list; nothing is delivered twice.
theorem overtaken_only_by_direct_sends (run : Run start steps last) (clean : Clean start.storage)
    (one : ∀ s ∈ steps, s.label.callback.ctx.db = db) :
    (books db start steps).sent.map (fun d => (bodies db start steps)[d.1]?) = (delivered (calls steps)).map some ∧
    ((books db start steps).sent.map Prod.fst).Nodup ∧
    (books db start steps).sent.Pairwise fun a b => a.1 < b.1 ∨ (a.2 = true ∧ b.2 = false) := by
  obtain ⟨tracks,ordered⟩ := booked_run run clean one
  exact ⟨tracks.sent,(List.nodup_append.mp ordered.once).1,ordered.sent⟩

theorem overtaken_only_by_direct_sends_outage : ∃ start steps last, Run start steps last ∧
    (books 0 start steps).sent = [(2,true),(0,false),(1,false)] ∧
    (books 0 start steps).sent.map (fun d => (bodies 0 start steps)[d.1]?) = (delivered (calls steps)).map some := by
  obtain ⟨start,steps,last,loaded,run,seen⟩ := played_run (master 0) (allKeys "0") (fun _ => [])
    [expired 0 "a" (connects ++ refuses),expired 0 "b" refuses,expired 0 "c" (accepts ++ accepts ++ accepts)]
    (fun start steps _ => decide ((books 0 start steps).sent = [(2,true),(0,false),(1,false)]) &&
      steps.all fun s => s.label.callback.ctx.db == 0) (by decide +kernel)
  obtain ⟨seen,one⟩ := (Bool.and_eq_true _ _).mp seen
  have one : ∀ s ∈ steps, s.label.callback.ctx.db = 0 := fun s member => eq_of_beq (List.all_eq_true.mp one s member)
  have clean : Clean start.storage := by
    rw [(loaded_store loaded).1]
    intro db bytes member
    cases member
  exact ⟨start,steps,last,run,of_decide_eq_true seen,(overtaken_only_by_direct_sends run clean one).1⟩

theorem direct_send_overtakes : ∃ start steps last, Loaded (master 0) (allKeys "0") (fun _ => []) start ∧
    Run start steps last ∧ (∀ s ∈ steps, s.label.callback.ctx.db = 0) ∧
    (∀ s ∈ steps, s.before.settings.fallbackStorageMaxSize = 0) ∧
    handedOver (calls steps) = [(0,ascii "0\nexpired\na"),(0,ascii "0\nexpired\nb")] ∧
    delivered (calls steps) = [ascii "0\nexpired\nb",ascii "0\nexpired\na"] := by
  obtain ⟨start,steps,last,loaded,run,seen⟩ := played_run (master 0) (allKeys "0") (fun _ => [])
    [expired 0 "a" (connects ++ refuses),expired 0 "b" (accepts ++ accepts)]
    (fun _ steps _ => decide ((∀ s ∈ steps, s.label.callback.ctx.db = 0) ∧
      (∀ s ∈ steps, s.before.settings.fallbackStorageMaxSize = 0) ∧
      handedOver (calls steps) = [(0,ascii "0\nexpired\na"),(0,ascii "0\nexpired\nb")] ∧
      delivered (calls steps) = [ascii "0\nexpired\nb",ascii "0\nexpired\na"])) (by decide +kernel)
  exact ⟨start,steps,last,loaded,run,of_decide_eq_true seen⟩

end KeyspaceAmqp
