import BitSchema.Proofs.ScopeStack

/-!
# Reading on after a failure

A text that cannot be read leaves scopes open: its file, if it has been begun and is not complete, and the enums and
messages that are open where reading stops.  They are below everything that is read afterwards, so names that a later
text does not define are looked for in them, its definitions are bound to the outermost of them, and they are the
scopes around its file.  A later text is read as by a new reader only if none were left.
-/

namespace BitSchema.Reading

end BitSchema.Reading
