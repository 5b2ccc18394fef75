import IntentModel.Main
import IntentModel.Proofs.CommandLine
import IntentModel.Proofs.CompilationFault
import IntentModel.Proofs.Corpus.Faults
import IntentModel.Proofs.Corpus.Interleaving
import IntentModel.Proofs.Corpus.Lists
import IntentModel.Proofs.Declarations
import IntentModel.Proofs.EntityGroups
import IntentModel.Proofs.IntentRemoval
import IntentModel.Proofs.Tag.Pieces
import IntentModel.Proofs.TaggedPlaceholder
import IntentModel.Proofs.Template.Failure
import IntentModel.Proofs.Template.Product
import IntentModel.Proofs.Template.Termination
import IntentModel.Proofs.Utterance.Bounds
import IntentModel.Proofs.Utterance.PlainText
import IntentModel.Proofs.Text.Folding
import IntentModel.Proofs.Phraselist
import IntentModel.Proofs.Template.Agreement
import IntentModel.Proofs.Text.BlankRuns
import IntentModel.Proofs.Utterance.Spacing
import IntentModel.Proofs.Template.Courses
import IntentModel.Proofs.Template.Size
import IntentModel.Proofs.Template.Search
import IntentModel.Proofs.FeatureWords
