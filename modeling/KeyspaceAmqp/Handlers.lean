import KeyspaceAmqp.System

namespace KeyspaceAmqp
open Programs

def Command.body : Command → Ctx → List Bytes → Act Int32
  | .connect,ctx,argv => connectAmqpCommand ctx argv
  | .disconnect,_,argv => disconnectAmqpCommand argv
  | .configSet,ctx,argv => setupConfig ctx argv 1
  | .fallbackStorageSizeSet,ctx,argv => setupFallbackStorageSizeCommand ctx argv
  | .keymaskClean,_,_ => keymaskCleanCommand
  | .keymaskAdd,_,argv => keymaskAddCommand argv
  | .keymaskSet,_,argv => do
    let _ ← keymaskCleanCommand
    let _ ← keymaskAddCommand argv
    pure REDISMODULE_OK

-- The number of arguments, the name among them, at which a handler reports wrong arity
-- before it goes on.
def Command.wrong : Command → List Bytes → Bool
  | .connect,_ | .disconnect,_ => false
  | .configSet,argv | .keymaskAdd,argv | .keymaskSet,argv => argv.length < 2
  | .fallbackStorageSizeSet,argv => argv.length ≠ 2
  | .keymaskClean,argv => argv.length > 1

theorem handler_body (command : Command) (ctx : Ctx) (argv : List Bytes) : command.handler ctx argv = (do
    wrongArityWhen (command.wrong argv)
    broadcastRedisCommand ctx argv
    command.body ctx argv) := by
  cases command <;> rfl

-- The names the receiver's strcmp chain can reach.
def received (name : Bytes) : Option Command :=
  [.connect,.disconnect,.configSet,.fallbackStorageSizeSet,.keymaskClean,.keymaskAdd].find?
    fun command : Command => command.name == name

theorem dispatch_body (ran : Ends (dispatch ctx command argv) w u w') :
    (∃ found res, received command.bytes = some found ∧ Ends (found.body ctx argv) w res w') ∨
      (received command.bytes = none ∧ w' = w) := by
  simp only [dispatch,ends_ite,ends_bind,ends_pure] at ran
  rcases ran with ⟨name,_,_,ran,_,rfl⟩ | ⟨a,⟨name,_,_,ran,_,rfl⟩ | ⟨b,⟨name,_,_,ran,_,rfl⟩ | ⟨c,⟨name,_,_,ran,_,rfl⟩ |
    ⟨d,⟨name,_,_,ran,_,rfl⟩ | ⟨e,⟨name,_,_,ran,_,rfl⟩ | ⟨other,⟨name,_⟩ | ⟨_,_,rfl⟩⟩⟩⟩⟩⟩⟩
  · exact .inl ⟨.connect,_,by rw [name]; rfl,ran⟩
  · exact .inl ⟨.disconnect,_,by rw [name]; rfl,ran⟩
  · exact .inl ⟨.configSet,_,by rw [name]; rfl,ran⟩
  · exact .inl ⟨.fallbackStorageSizeSet,_,by rw [name]; rfl,ran⟩
  · exact .inl ⟨.keymaskClean,_,by rw [name]; rfl,ran⟩
  · exact .inl ⟨.keymaskAdd,_,by rw [name]; rfl,ran⟩
  · exact absurd name other
  · refine .inr ⟨?_,rfl⟩
    simp [received,Ne.symm a,Ne.symm b,Ne.symm c,Ne.symm d,Ne.symm e,Ne.symm other]

end KeyspaceAmqp
