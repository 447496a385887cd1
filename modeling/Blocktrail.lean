import Blocktrail.Lib.Runs
import Blocktrail.Lib.Throwing
import Blocktrail.Lib.Php
import Blocktrail.JsSdk.KeyState
import Blocktrail.JsSdk.Lifecycle
import Blocktrail.JsSdk.AddressHistory
import Blocktrail.JsSdk.UnlockSpec
import Blocktrail.JsSdk.Completeness
import Blocktrail.JsSdk.WorkerProtocol
import Blocktrail.PhpSdk.SweeperCover
import Blocktrail.PhpSdk.KeyLabels
import Blocktrail.TwoSdks.SameScripts
import Blocktrail.TwoSdks.KeyOrder
import Blocktrail.Bitcoin.Components
import Blocktrail.JsSdk.WorkerCrypt
import Blocktrail.TwoSdks.CiphertextFormat
import Blocktrail.TwoSdks.BackupMnemonic
import Blocktrail.JsSdk.NewAddressSpec
import Blocktrail.PhpSdk.LockDiscipline
import Blocktrail.TwoSdks.SizeEstimation
import Blocktrail.WebWallet.Polling
import Blocktrail.WebWallet.Resync
import Blocktrail.WebWallet.HistorySpec
import Blocktrail.WebWallet.Addresses
import Blocktrail.WebWallet.WalletsManager
import Blocktrail.WebWallet.Settings
import Blocktrail.WebWallet.GlobalLock
import Blocktrail.WebWallet.LaunchService
import Blocktrail.WebWallet.SweeperFinds
import Blocktrail.MobileWallet.LocalStorage
import Blocktrail.MobileWallet.Send
import Blocktrail.MobileWallet.PinStorage
import Blocktrail.MobileWallet.PinGate
import Blocktrail.BackupSheet.RoundTrip
import Blocktrail.PhpSdk.WalletCaches
import Blocktrail.SlackTipbot.Confirmations
import Blocktrail.TwoSdks.UnspentPages
import Blocktrail.PhpSdk.FeeAndChange
import Blocktrail.SimplyRandom.Calls
import Blocktrail.JsSdk.CashAddress
import Blocktrail.JsSdk.AcceptedAddresses
import Blocktrail.WebWallet.SweepTransactions
import Blocktrail.SlackTipbot.UserWallet
import Blocktrail.SlackTipbot.Amounts
import Blocktrail.MobileWallet.WalletPin
import Blocktrail.PhpSdk.Finders
import Blocktrail.WebWallet.GlideraService
import Blocktrail.JsSdk.Payments
import Blocktrail.JsSdk.Spending
import Blocktrail.JsSdk.SweepSpec
import Blocktrail.JsSdk.RecoverySpec
import Blocktrail.JsSdk.SheetLife
import Blocktrail.PhpSdk.Recovery
import Blocktrail.TwoSdks.Sheets
import Blocktrail.HttpSignatures.RoundTrip
import Blocktrail.ForkQueue.QueueSpec
