import CoreCrypto.MlsProvider.Hpke
import CoreCrypto.Keystore.InsertOnly
import CoreCrypto.Keystore.PendingMessages
import CoreCrypto.Keystore.Deadlock
import CoreCrypto.Keystore.Derived
import CoreCrypto.Wasm.PendingMessages
import CoreCrypto.Migrations.CredentialSteps
import CoreCrypto.Migrations.KeyMaterial
import CoreCrypto.Migrations.Runner
import CoreCrypto.Migrations.IdbMigration
import CoreCrypto.Migrations.Deduplication
import CoreCrypto.TransactionContext.Handles
import CoreCrypto.TransactionContext.ContextDeadlock
import CoreCrypto.Proteus.Transactions
import CoreCrypto.Revocation.Lookup
import CoreCrypto.Revocation.Cache
import CoreCrypto.Acquisition.Snapshot
import CoreCrypto.Conversation.CommitDelay
import CoreCrypto.Conversation.MemberQueries
import CoreCrypto.Conversation.Announcements
import CoreCrypto.Conversation.Belonging
import CoreCrypto.Pki.AnchoredCrls
import CoreCrypto.Conversation.FailedJoins
import CoreCrypto.Credentials.ConversationState
import CoreCrypto.Credentials.Persistence
import CoreCrypto.Credentials.Removal
import CoreCrypto.Conversation.Rotation
